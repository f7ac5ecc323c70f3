import DeviceMessages.Format.Parser
import DeviceMessages.Format.Render
import DeviceMessages.Proofs.Text.Span

/-!
# The grammar of field formats

What a field format looks like, and what is wrong with a text that is none, said without any reader.
A format is literal text, one directive, and literal text again (`WritesFormat`). A directive has
parts that may all be missing but the conversion at its end, and reading takes each part as far as
it goes: `Opens` is the beginning of a directive up to where the conversion has to stand. A text
can go wrong in six ways (`Fault`), and in each of them everything before the fault is as it would
be in a format, so that the fault is the first one that is met from the left.

What the grammar leaves to its classes of characters are a few facts that are settled by going
through the characters (`conversionLetter_facts`, `lengthChar_facts`).
-/

namespace DeviceMessages.FieldFormat

open Decimal (valueOf wordSize)
open Text (utf8Length offsetOf)

/-! ## The grammar -/

/-- The ways to write literal text: a percent sign twice, every other character as it is. -/
inductive WritesLiteral : List Char → List Char → Prop
  | nil : WritesLiteral [] []
  | char {c : Char} {text cs : List Char} (hc : c ≠ '%') (htext : WritesLiteral text cs) :
      WritesLiteral (c :: text) (c :: cs)
  | percent {text cs : List Char} (htext : WritesLiteral text cs) :
      WritesLiteral ('%' :: text) ('%' :: '%' :: cs)

/-- A run of digits, which may be empty. -/
def IsDigits (ds : List Char) : Prop := ∀ d ∈ ds, d.isDigit = true

/-- The ways to write a field width, or none. -/
inductive WritesNumber : Option Nat → List Char → Prop
  | absent : WritesNumber none []
  | digits {ds : List Char} (hne : ds ≠ []) (hdigits : IsDigits ds)
      (hle : valueOf ds ≤ maxWidth) : WritesNumber (some (valueOf ds)) ds

/-- The ways to write a precision, or none: a point, and digits unless the precision is zero. -/
inductive WritesPrecision : Option Nat → List Char → Prop
  | absent : WritesPrecision none []
  | point {number : Option Nat} {ds : List Char} (hnumber : WritesNumber number ds) :
      WritesPrecision (some (number.getD 0)) ('.' :: ds)

def flagChars : List Char := ['-', '+', ' ', '0', '#']

/-- The characters that may stand before a conversion without any meaning. -/
def lengthChars : List Char := ['h', 'l', 'L', 'q', 'j', 'z', 't']

def conversionLetters : List (Char × Conversion) :=
  [('d', .signed), ('i', .signed), ('u', .unsigned), ('o', .octal), ('x', .hex .lower),
    ('X', .hex .upper), ('f', .fixed), ('F', .fixed), ('e', .exponent .lower),
    ('E', .exponent .upper), ('g', .general .lower), ('G', .general .upper), ('s', .text),
    ('c', .character)]

/-- The ways to write a directive. The run of flags is maximal: a zero that could be a flag is
never the first digit of the width. -/
inductive WritesDirective : Directive → List Char → Prop
  | mk {flags w p lengths : List Char} {width precision : Option Nat} {letter : Char}
      {conversion : Conversion} (hflags : ∀ c ∈ flags, c ∈ flagChars)
      (hmaximal : ∀ c ∈ (w ++ p ++ lengths ++ [letter]).head?, c ∉ flagChars)
      (hwidth : WritesNumber width w) (hprecision : WritesPrecision precision p)
      (hlengths : ∀ c ∈ lengths, c ∈ lengthChars)
      (hletter : (letter, conversion) ∈ conversionLetters) :
      WritesDirective ⟨Flags.ofChars flags, width, precision, conversion⟩
        ('%' :: flags ++ w ++ p ++ lengths ++ [letter])

/-- The ways to write a format with a literal text, a directive and another literal text. -/
inductive WritesFormat : List Char → Directive → List Char → List Char → Prop
  | mk {leading trailing before written after : List Char} {d : Directive}
      (hleading : WritesLiteral leading before) (hdirective : WritesDirective d written)
      (htrailing : WritesLiteral trailing after) :
      WritesFormat leading d trailing (before ++ written ++ after)

theorem WritesNumber.getD_le {number : Option Nat} {ds : List Char} (h : WritesNumber number ds) :
    number.getD 0 ≤ maxWidth := by
  cases h with
  | absent => exact Nat.zero_le maxWidth
  | digits _ _ hle => exact hle

/-- No format asks for more places than its largest width. -/
theorem WritesFormat.precision_le {leading trailing cs : List Char} {d : Directive}
    (h : WritesFormat leading d trailing cs) : d.precision.getD 6 ≤ maxWidth := by
  cases h with
  | mk _ hdirective _ =>
      cases hdirective with
      | mk _ _ _ hprecision _ _ =>
          cases hprecision with
          | absent => exact (by decide : 6 ≤ maxWidth)
          | point hnumber => exact hnumber.getD_le

/-! ## What can be wrong -/

/-- A number that is written with digits and larger than any width or precision. -/
def IsOversized (ds : List Char) : Prop := ds ≠ [] ∧ IsDigits ds ∧ maxWidth < valueOf ds

/-- Digits end where no further one follows. -/
def EndsDigits (rest : List Char) : Prop := ∀ c ∈ rest.head?, c.isDigit = false

/-- `Opens flags width precision head rest`: after a percent sign, `head` is written with the flags,
the width and the precision, each taken as far as it goes, and `rest` begins where the conversion
has to stand. -/
inductive Opens : Flags → Option Nat → Option Nat → List Char → List Char → Prop
  | mk {flags w p lengths rest : List Char} {width precision : Option Nat}
      (hflags : ∀ c ∈ flags, c ∈ flagChars)
      (hflagsEnd : ∀ c ∈ (w ++ p ++ lengths ++ rest).head?, c ∉ flagChars)
      (hwidth : WritesNumber width w) (hwidthEnd : EndsDigits (p ++ lengths ++ rest))
      (hprecision : WritesPrecision precision p) (hprecisionEnd : EndsDigits (lengths ++ rest))
      (hpoint : precision = none → ∀ c ∈ (lengths ++ rest).head?, c ≠ '.')
      (hlengths : ∀ c ∈ lengths, c ∈ lengthChars)
      (hlengthsEnd : ∀ c ∈ rest.head?, c ∉ lengthChars) :
      Opens (Flags.ofChars flags) width precision (flags ++ w ++ p ++ lengths) rest

/-- What is wrong with a text that is no format, with the byte offset where the fault starts. -/
inductive Fault : List Char → FormatError → Prop
  /-- The digits of a width end, and the number is too large. -/
  | wideWidth {text before flags ds rest : List Char} (hbefore : WritesLiteral text before)
      (hflags : ∀ c ∈ flags, c ∈ flagChars) (hmaximal : ∀ c ∈ ds.head?, c ∉ flagChars)
      (hds : IsOversized ds) (hend : EndsDigits rest) :
      Fault (before ++ '%' :: flags ++ ds ++ rest)
        (.tooWide (min (valueOf ds) (wordSize - 1)) (utf8Length (before ++ '%' :: flags)))
  /-- The digits of a precision end, and the number is too large. -/
  | widePrecision {text before flags w ds rest : List Char} {width : Option Nat}
      (hbefore : WritesLiteral text before) (hflags : ∀ c ∈ flags, c ∈ flagChars)
      (hmaximal : ∀ c ∈ (w ++ ['.']).head?, c ∉ flagChars) (hwidth : WritesNumber width w)
      (hds : IsOversized ds) (hend : EndsDigits rest) :
      Fault (before ++ '%' :: flags ++ w ++ '.' :: ds ++ rest)
        (.tooWide (min (valueOf ds) (wordSize - 1))
          (utf8Length (before ++ '%' :: flags ++ w ++ ['.'])))
  /-- The text ends where the conversion has to stand. -/
  | incomplete {text before head : List Char} {flags : Flags} {width precision : Option Nat}
      (hbefore : WritesLiteral text before) (hopens : Opens flags width precision head []) :
      Fault (before ++ '%' :: head) (.incomplete (utf8Length before))
  /-- Another character stands where the conversion has to stand. -/
  | unknownConversion {text before head rest : List Char} {c : Char} {flags : Flags}
      {width precision : Option Nat} (hbefore : WritesLiteral text before)
      (hopens : Opens flags width precision head (c :: rest))
      (hc : ∀ conversion, (c, conversion) ∉ conversionLetters) (hpercent : c = '%' → head ≠ []) :
      Fault (before ++ '%' :: head ++ c :: rest)
        (.unknownConversion c (utf8Length (before ++ '%' :: head)))
  /-- A second directive begins. -/
  | tooManyConversions {leading text before written after rest : List Char} {d : Directive}
      (hbefore : WritesLiteral leading before) (hdirective : WritesDirective d written)
      (hafter : WritesLiteral text after) (hrest : rest.head? ≠ some '%') :
      Fault (before ++ written ++ after ++ '%' :: rest)
        (.tooManyConversions (utf8Length (before ++ written ++ after)))
  /-- The text ends, and there was no directive. -/
  | noConversion {text cs : List Char} (htext : WritesLiteral text cs) : Fault cs .noConversion

/-! ## The classes of characters -/

theorem isFlag_iff {c : Char} : Directive.isFlag c = true ↔ c ∈ flagChars := by
  simp [Directive.isFlag, flagChars, or_assoc]

theorem isLengthModifier_iff {c : Char} :
    Directive.isLengthModifier c = true ↔ c ∈ lengthChars := by
  simp [Directive.isLengthModifier, lengthChars, or_assoc]

theorem ofChar?_eq_some_iff {c : Char} {conversion : Conversion} :
    Conversion.ofChar? c = some conversion ↔ (c, conversion) ∈ conversionLetters := by
  constructor
  · intro h
    unfold Conversion.ofChar? at h
    split at h <;> cases h <;> simp [conversionLetters]
  · intro h
    simp only [conversionLetters, List.mem_cons, Prod.mk.injEq, List.not_mem_nil, or_false] at h
    rcases h with ⟨rfl, rfl⟩ | ⟨rfl, rfl⟩ | ⟨rfl, rfl⟩ | ⟨rfl, rfl⟩ | ⟨rfl, rfl⟩ | ⟨rfl, rfl⟩ |
      ⟨rfl, rfl⟩ | ⟨rfl, rfl⟩ | ⟨rfl, rfl⟩ | ⟨rfl, rfl⟩ | ⟨rfl, rfl⟩ | ⟨rfl, rfl⟩ | ⟨rfl, rfl⟩ |
      ⟨rfl, rfl⟩ <;> rfl

/-- No conversion letter is a percent sign, continues a number, or is taken for an earlier part of a
directive. -/
theorem conversionLetter_facts {c : Char} {conversion : Conversion}
    (h : (c, conversion) ∈ conversionLetters) :
    c ≠ '%' ∧ c ≠ '.' ∧ c.isDigit = false ∧ c ∉ lengthChars := by
  have hall : conversionLetters.all (fun (c, _) =>
      c != '%' && c != '.' && !c.isDigit && !lengthChars.contains c) = true := by decide
  have hc := List.all_eq_true.1 hall _ h
  simpa [and_assoc] using hc

/-- Neither is a length modifier. -/
theorem lengthChar_facts {c : Char} (h : c ∈ lengthChars) : c ≠ '.' ∧ c.isDigit = false := by
  have hall : lengthChars.all (fun c => c != '.' && !c.isDigit) = true := by decide
  have hc := List.all_eq_true.1 hall _ h
  simpa using hc

end DeviceMessages.FieldFormat
