import DeviceMessages.Format.Basic
import DeviceMessages.Text.Basic

/-!
# Writing a value through a field format

A value that reads as a number for the conversion is written as one: a sign or a base prefix, and
the digits. Any other value, and every value of the text conversions, is written as text. Only
then is the result brought to the field width, and only a number is ever filled with zeros, which go
between its sign and its digits.

One thing can go wrong, and then there is no text: the general notation of a small number asks for
more places than a number can be written with.
-/

namespace DeviceMessages

open Decimal

/-- What a value reads as for a numeric conversion. -/
inductive Number where
  | integer (negative : Bool) (magnitude : Nat)
  | measured (value : Binary64)
deriving DecidableEq

/-- A number ready to be brought to the field width. -/
structure NumberText where
  /-- The sign or the base prefix. -/
  sign : List Char
  body : List Char
  /-- Whether zeros may fill the field. -/
  zeroFill : Bool
deriving DecidableEq

namespace Directive

/-! ## The parts of a number -/

/-- What stands before a signed number. -/
def signText (d : Directive) (negative : Bool) : List Char :=
  if negative then ['-']
  else if d.flags.plus then ['+']
  else if d.flags.space then [' ']
  else []

/-- The digits of an integer in the base of the conversion. -/
def baseDigits (d : Directive) (n : Nat) : List Char :=
  match d.conversion with
  | .octal => Nat.toDigits 8 n
  | .hex .lower => Nat.toDigits 16 n
  | .hex .upper => (Nat.toDigits 16 n).map Char.toUpper
  | _ => digits n

/-- The digits of an integer brought to the precision. With the precision 0, zero has no digits. -/
def integerDigits (d : Directive) (n : Nat) : List Char :=
  let ds := d.baseDigits n
  match d.precision with
  | none => ds
  | some p => if p = 0 ∧ n = 0 then [] else List.replicate (p - ds.length) '0' ++ ds

/-- An integer with its sign or prefix. The alternate form of an octal number starts with a zero,
and that of a hexadecimal number other than zero with `0x`. -/
def integerText (d : Directive) (negative : Bool) (n : Nat) : NumberText :=
  let ds := d.integerDigits n
  let zeroFill := d.precision.isNone
  match d.conversion with
  | .signed => ⟨d.signText negative, ds, zeroFill⟩
  | .octal =>
    let leadingZero := if d.flags.alternate ∧ ds.head? ≠ some '0' then ['0'] else []
    ⟨[], leadingZero ++ ds, zeroFill⟩
  | .hex letters =>
    let marker := match letters with
      | .lower => ['0', 'x']
      | .upper => ['0', 'X']
    ⟨if d.flags.alternate ∧ n ≠ 0 then marker else [], ds, zeroFill⟩
  | _ => ⟨[], ds, zeroFill⟩

/-- The magnitude of a measured value, with six places unless a precision is given. The alternate
form of the fixed notation has a point even without places. -/
def measuredBody (d : Directive) (x : Rat) : Option (List Char) :=
  let precision := d.precision.getD 6
  match d.conversion with
  | .exponent letters => some (exponentNotation letters precision x)
  | .general letters => generalNotation letters d.flags.alternate precision x
  | _ => some (fixedNotation precision x ++ if d.flags.alternate ∧ precision = 0 then ['.'] else [])

/-- A measured value with its sign. Only a value below zero has a minus sign, also when it is
rounded to zero. -/
def measuredText (d : Directive) (v : Binary64) : Option NumberText :=
  (d.measuredBody v.magnitude.toRat).map fun body => ⟨d.signText v.isBelowZero, body, true⟩

/-- The text of a number, if it can be written. -/
def numberText (d : Directive) : Number → Option NumberText
  | .integer negative n => some (d.integerText negative n)
  | .measured v => d.measuredText v

/-- The 64 bit word that an unsigned conversion takes a text for. A negative integer stands for the
word with the same bits. -/
def word? (cs : List Char) : Option Nat :=
  (unsigned64? cs).or ((signed64? cs).map fun n => (n % (wordSize : Int)).toNat)

/-- The value as a number, if the conversion is numeric and the value without the blanks around it
reads as a number for it. -/
def number? (d : Directive) (value : List Char) : Option Number :=
  let cs := Text.trim value
  match d.conversion with
  | .signed => (signed64? cs).map fun n => .integer (n < 0) n.natAbs
  | .unsigned | .octal | .hex _ => (word? cs).map (.integer false)
  | .fixed | .exponent _ | .general _ => (finite? cs).map .measured
  | .text | .character => none

/-! ## Text and padding -/

/-- The value as text: its first character, or as many characters as the precision allows. -/
def textOf (d : Directive) (value : List Char) : List Char :=
  match d.conversion, d.precision with
  | .character, _ => value.take 1
  | _, some p => value.take p
  | _, none => value

/-- A text filled with spaces up to the field width. -/
def padText (d : Directive) (text : List Char) : List Char :=
  let fill := List.replicate (d.width.getD 0 - text.length) ' '
  if d.flags.left then text ++ fill else fill ++ text

/-- A number filled with zeros or spaces up to the field width. -/
def padNumber (d : Directive) (n : NumberText) : List Char :=
  if d.flags.zero && n.zeroFill && !d.flags.left then
    n.sign ++ List.replicate (d.width.getD 0 - (n.sign ++ n.body).length) '0' ++ n.body
  else d.padText (n.sign ++ n.body)

/-- The text that the directive writes for a value, if it can be written. -/
def render (d : Directive) (value : List Char) : Option (List Char) :=
  match d.number? value with
  | some n => (d.numberText n).map d.padNumber
  | none => some (d.padText (d.textOf value))

end Directive

def FieldFormat.render (f : FieldFormat) (value : String) : Option String :=
  (f.directive.render value.toList).map fun text =>
    f.leading ++ String.ofList text ++ f.trailing

end DeviceMessages
