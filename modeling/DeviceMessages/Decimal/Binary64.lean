import DeviceMessages.Decimal.Numeral

/-!
# Finite double precision numbers

Measured values are double precision numbers. A finite one is a sign and a magnitude `m * 2 ^ q`
with an integer `m` below `2 ^ 53`; its value is an exact rational, and everything that is done to
it here is done to that rational. Two roundings occur, both to the nearest with ties to even:
`nearest?` brings a rational to the closest double, and `roundHalfEven` brings one to an integer.
-/

namespace DeviceMessages.Decimal

/-- The integer nearest to a rational; of two equally near ones, the even one. -/
def roundHalfEven (x : Rat) : Int :=
  let below := x.floor
  let excess := x - below
  if excess < 1 / 2 then below
  else if 1 / 2 < excess then below + 1
  else below + below % 2

/-- The magnitude `significand * 2 ^ exponent` of a finite double. -/
structure Magnitude where
  significand : Nat
  exponent : Int
deriving DecidableEq

namespace Magnitude

/-- The magnitude as an exact rational. -/
def toRat (v : Magnitude) : Rat :=
  v.significand * (2 : Rat) ^ v.exponent

/-- The exponent of the largest power of two that a positive rational reaches. -/
def floorLog2 (x : Rat) : Int :=
  let guess : Int := (x.num.toNat.log2 : Int) - (x.den.log2 : Int)
  if (2 : Rat) ^ guess ≤ x then guess else guess - 1

/-- The double nearest to a nonnegative rational, ties going to the even significand. There is none
when the rounded value reaches `2 ^ 1024`. -/
def nearest? (x : Rat) : Option Magnitude :=
  let exponent := if x = 0 then -1074 else max (floorLog2 x - 52) (-1074)
  let significand := (roundHalfEven (x * (2 : Rat) ^ (-exponent))).toNat
  let rounded : Magnitude :=
    if significand < 0x20000000000000 then ⟨significand, exponent⟩
    else ⟨0x10000000000000, exponent + 1⟩
  if rounded.exponent ≤ 971 then some rounded else none

end Magnitude

/-- A finite double: its sign, which zero has too, and its magnitude. -/
structure Binary64 where
  negative : Bool
  magnitude : Magnitude
deriving DecidableEq

/-- Whether a double is less than zero. Negative zero is not. -/
def Binary64.isBelowZero (v : Binary64) : Bool :=
  v.negative && v.magnitude.significand != 0

/-! ## Reading scientific numerals -/

/-- An unsigned number in scientific writing: digits, then the power of ten of the last one. -/
structure Scientific where
  digits : List Char
  exponent : Int
deriving DecidableEq

namespace Scientific

/-- What may follow the digits of a scientific numeral: nothing, or `e` and an integer. -/
def exponent? : List Char → Option Int
  | [] => some 0
  | c :: cs => if c = 'e' ∨ c = 'E' then integer? cs else none

/-- The digits after a decimal point at the front, and what follows them. -/
def fraction : List Char → List Char × List Char
  | '.' :: cs => (cs.takeWhile Char.isDigit, cs.dropWhile Char.isDigit)
  | cs => ([], cs)

/-- Reads digits with an optional point among them or at either end, and an optional exponent. At
least one digit has to stand beside the point. -/
def ofChars? (cs : List Char) : Option Scientific :=
  let whole := cs.takeWhile Char.isDigit
  let (fractionDigits, rest) := fraction (cs.dropWhile Char.isDigit)
  if whole.isEmpty && fractionDigits.isEmpty then none
  else (exponent? rest).map fun e => ⟨whole ++ fractionDigits, e - fractionDigits.length⟩

/-- The nearest double. The number of significant digits and the exponent settle the numbers that
are far too small or far too large, so that no huge power of ten is ever computed. -/
def magnitude? (s : Scientific) : Option Magnitude :=
  let significant := s.digits.dropWhile (· == '0')
  let size : Int := significant.length + s.exponent
  if significant.isEmpty || size < -330 then Magnitude.nearest? 0
  else if 310 < size then none
  else Magnitude.nearest? (valueOf significant * (10 : Rat) ^ s.exponent)

end Scientific

/-- The finite double that a numeral in scientific writing with an optional sign is nearest to. A
numeral too large for a double has none, and neither has a name such as `nan` or `inf`. -/
def finite? : List Char → Option Binary64
  | '-' :: cs => (Scientific.ofChars? cs).bind fun s => s.magnitude?.map (⟨true, ·⟩)
  | '+' :: cs => (Scientific.ofChars? cs).bind fun s => s.magnitude?.map (⟨false, ·⟩)
  | cs => (Scientific.ofChars? cs).bind fun s => s.magnitude?.map (⟨false, ·⟩)

end DeviceMessages.Decimal
