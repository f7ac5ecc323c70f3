import DeviceMessages.Decimal.Notation

/-!
# Field formats

A field format says how the text of one field is written into a message, for instance `ID=%04d;` or
`%-10s`. It has exactly one directive, with literal text before and after it, in which `%%` stands
for a percent sign.

The values to be written are always text. A numeric conversion writes the number that the text
reads as, and text that does not read as one is written as text.
-/

namespace DeviceMessages

/-- What a format directive makes of a value. -/
inductive Conversion where
  | signed
  | unsigned
  | octal
  | hex (letters : Decimal.LetterCase)
  | fixed
  | exponent (letters : Decimal.LetterCase)
  | general (letters : Decimal.LetterCase)
  | text
  | character
deriving DecidableEq

namespace Conversion

/-- The letter of each conversion; `d` and `f` have a second one. -/
def ofChar? : Char → Option Conversion
  | 'd' | 'i' => some .signed
  | 'u' => some .unsigned
  | 'o' => some .octal
  | 'x' => some (.hex .lower)
  | 'X' => some (.hex .upper)
  | 'f' | 'F' => some .fixed
  | 'e' => some (.exponent .lower)
  | 'E' => some (.exponent .upper)
  | 'g' => some (.general .lower)
  | 'G' => some (.general .upper)
  | 's' => some .text
  | 'c' => some .character
  | _ => none

def isInteger : Conversion → Bool
  | .signed | .unsigned | .octal | .hex _ => true
  | _ => false

end Conversion

/-- The flags of a directive: `-`, `+`, space, `0` and `#`. -/
structure Flags where
  left : Bool
  plus : Bool
  space : Bool
  zero : Bool
  alternate : Bool
deriving DecidableEq

/-- The flags that a run of flag characters sets, in any order and any number of times. -/
def Flags.ofChars (cs : List Char) : Flags where
  left := cs.contains '-'
  plus := cs.contains '+'
  space := cs.contains ' '
  zero := cs.contains '0'
  alternate := cs.contains '#'

/-- The one conversion of a field format with its flags, field width and precision. -/
structure Directive where
  flags : Flags
  width : Option Nat
  precision : Option Nat
  conversion : Conversion
deriving DecidableEq

/-- A directive between two literal texts, and the text the whole was read from. -/
structure FieldFormat where
  source : String
  leading : String
  directive : Directive
  trailing : String
deriving DecidableEq

def FieldFormat.isInteger (f : FieldFormat) : Bool :=
  f.directive.conversion.isInteger

/-- What can be wrong with the text of a field format. Offsets count bytes. -/
inductive FormatError where
  /-- The text ends within the directive that starts at the offset. -/
  | incomplete (offset : Nat)
  | unknownConversion (conversion : Char) (offset : Nat)
  | noConversion
  /-- A second directive starts at the offset. -/
  | tooManyConversions (offset : Nat)
  /-- A width or precision whose digits start at the offset is out of range. -/
  | tooWide (value offset : Nat)
deriving DecidableEq

namespace FieldFormat

/-- The largest field width and the largest precision. -/
def maxWidth : Nat := 65535

end FieldFormat

def FormatError.message : FormatError → String
  | .incomplete offset => s!"incomplete conversion at offset {offset}"
  | .unknownConversion conversion offset =>
    s!"unknown conversion '%{conversion}' at offset {offset}"
  | .noConversion => "format has no conversion"
  | .tooManyConversions offset => s!"more than one conversion (second at offset {offset})"
  | .tooWide value offset =>
    s!"width or precision {value} at offset {offset} exceeds {FieldFormat.maxWidth}"

end DeviceMessages
