import DeviceMessages.Format.Basic
import DeviceMessages.Text.Basic

/-!
# Reading field formats

A format is read from left to right, and the first fault met is the one reported. The reading
functions take the whole text beside the part that is left of it, because a fault is reported with
the byte offset of where it starts.
-/

namespace DeviceMessages

open Decimal (valueOf wordSize)
open Text (offsetOf)

/-- The literal text up to a percent sign that begins a directive, and the rest from that sign on.
Two percent signs are literal text that reads as one. -/
def FieldFormat.literalText : List Char → List Char × List Char
  | '%' :: '%' :: cs =>
    let (text, rest) := literalText cs
    ('%' :: text, rest)
  | '%' :: cs => ([], '%' :: cs)
  | c :: cs =>
    let (text, rest) := literalText cs
    (c :: text, rest)
  | [] => ([], [])

namespace Directive

def isFlag (c : Char) : Bool :=
  c == '-' || c == '+' || c == ' ' || c == '0' || c == '#'

/-- The length modifiers, which have no meaning for values that are text. -/
def isLengthModifier (c : Char) : Bool :=
  c == 'h' || c == 'l' || c == 'L' || c == 'q' || c == 'j' || c == 'z' || c == 't'

/-- A width or precision at the front of `cs`, if there are digits. A number out of range is
reported as it is, or as the largest number of 64 bits if it is larger than that. -/
def readNumber (source cs : List Char) : Except FormatError (Option Nat × List Char) :=
  let ds := cs.takeWhile Char.isDigit
  if ds.isEmpty then .ok (none, cs)
  else if valueOf ds ≤ FieldFormat.maxWidth then .ok (some (valueOf ds), cs.dropWhile Char.isDigit)
  else .error (.tooWide (min (valueOf ds) (wordSize - 1)) (offsetOf source cs))

/-- A precision, if there is a point. A point without digits is the precision 0. -/
def readPrecision (source : List Char) : List Char → Except FormatError (Option Nat × List Char)
  | '.' :: cs => do
    let (number, rest) ← readNumber source cs
    .ok (some (number.getD 0), rest)
  | cs => .ok (none, cs)

/-- The directive that starts with a percent sign at `start`, where `cs` is what follows the sign.
-/
def read (source start cs : List Char) : Except FormatError (Directive × List Char) := do
  let flags := Flags.ofChars (cs.takeWhile isFlag)
  let (width, afterWidth) ← readNumber source (cs.dropWhile isFlag)
  let (precision, afterPrecision) ← readPrecision source afterWidth
  match afterPrecision.dropWhile isLengthModifier with
  | [] => .error (.incomplete (offsetOf source start))
  | c :: rest =>
    match Conversion.ofChar? c with
    | some conversion => .ok (⟨flags, width, precision, conversion⟩, rest)
    | none => .error (.unknownConversion c (offsetOf source (c :: rest)))

end Directive

namespace FieldFormat

/-- The directive of a format text, between the literal texts around it. -/
def readParts (source : List Char) : Except FormatError (List Char × Directive × List Char) := do
  let (leading, start) := literalText source
  match start with
  | [] => .error .noConversion
  | _ :: cs =>
    let (directive, afterDirective) ← Directive.read source start cs
    let (trailing, rest) := literalText afterDirective
    match rest with
    | [] => .ok (leading, directive, trailing)
    | _ :: _ => .error (.tooManyConversions (offsetOf source rest))

/-- The field format that a text spells, or what is wrong with it. -/
def parse (source : String) : Except FormatError FieldFormat := do
  let (leading, directive, trailing) ← readParts source.toList
  .ok ⟨source, String.ofList leading, directive, String.ofList trailing⟩

end FieldFormat

end DeviceMessages
