import DeviceMessages.Definition.Recognizer

/-!
# Tokens of definition files

A definition file is made of words, numbers, quoted strings and signs. Between them, and at the two
ends of the file, may stand white space and comments: to the end of the line after `//`, or between
`/*` and `*/`. A comment that is not closed is none.

A word that means something may run into the name after it, as in `templateack`.
-/

namespace DeviceMessages.Definition

/-! ## What stands between tokens -/

/-- The four blanks of definition files. -/
def isSpace (c : Char) : Bool :=
  c == ' ' || c == '\t' || c == '\r' || c == '\n'

/-- What is left after the first `*/`. -/
def afterBlock? : List Char → Option (List Char)
  | '*' :: '/' :: cs => some cs
  | _ :: cs => afterBlock? cs
  | [] => none

theorem length_of_afterBlock? {cs rest : List Char} (h : afterBlock? cs = some rest) :
    rest.length < cs.length := by
  fun_induction afterBlock? cs with
  | case1 cs => cases h; simp only [List.length_cons]; omega
  | case2 c cs _ ih => simp only [List.length_cons]; have := ih h; omega
  | case3 => cases h

/-- A text without the white space and comments at its beginning. -/
def skipTrivia (cs : List Char) : List Char :=
  match cs with
  | [] => []
  | c :: rest =>
    if isSpace c then skipTrivia rest
    else if c = '/' then
      match rest with
      | '/' :: comment => skipTrivia (comment.dropWhile (· != '\n'))
      | '*' :: comment =>
        match _h : afterBlock? comment with
        | some after => skipTrivia after
        | none => c :: rest
      | _ => c :: rest
    else c :: rest
termination_by cs.length
decreasing_by
  · simp
  · have := (List.dropWhile_sublist (· != '\n') (l := comment)).length_le
    simp only [List.length_cons]
    omega
  · have := length_of_afterBlock? _h
    simp only [List.length_cons]
    omega

/-! ## Tokens -/

/-- The letters, digits and the underscore of names; a name does not begin with a digit. -/
def isNameStart (c : Char) : Bool := c.isAlpha || c == '_'

@[inherit_doc isNameStart]
def isNameChar (c : Char) : Bool := c.isAlphanum || c == '_'

/-- A name at the beginning of a text. -/
def readName? : List Char → Option (List Char × List Char)
  | c :: cs =>
    if isNameStart c then some (c :: cs.takeWhile isNameChar, cs.dropWhile isNameChar) else none
  | [] => none

/-- The digits at the beginning of a text. -/
def readDigits? (cs : List Char) : Option (List Char × List Char) :=
  if (cs.takeWhile Char.isDigit).isEmpty then none
  else some (cs.takeWhile Char.isDigit, cs.dropWhile Char.isDigit)

/-- The text up to the quote that ends a string, with its escapes as they stand. A backslash takes
the next character with it, whatever that is. -/
def readBody? : List Char → Option (List Char × List Char)
  | '"' :: cs => some ([], cs)
  | '\\' :: c :: cs => (readBody? cs).map fun (body, rest) => ('\\' :: c :: body, rest)
  | '\\' :: [] => none
  | c :: cs => (readBody? cs).map fun (body, rest) => (c :: body, rest)
  | [] => none

/-- A quoted string at the beginning of a text. -/
def readQuoted? : List Char → Option (List Char × List Char)
  | '"' :: cs => readBody? cs
  | _ => none

/-- What a text has after a fixed beginning. -/
def readFixed? (word : List Char) (cs : List Char) : Option (Unit × List Char) :=
  if word.isPrefixOf cs then some ((), cs.drop word.length) else none

open Recognizer

/-- A token with the white space and comments after it. -/
def token {α : Type} (read : List Char → Option (α × List Char)) : Recognizer α :=
  ofReader fun cs => (read cs).map fun (a, rest) => (a, skipTrivia rest)

/-- A word or sign that is always the same. -/
def fixed (word : String) : Recognizer Unit :=
  token (readFixed? word.toList)

def name : Recognizer String :=
  named (token fun cs => (readName? cs).map fun (word, rest) => (String.ofList word, rest))

def number : Recognizer (List Char) :=
  named (token readDigits?)

/-- A quoted string, as it stands between the quotes. -/
def quotedBody : Recognizer (List Char) :=
  named (token readQuoted?)

def endOfText : Recognizer Unit :=
  named (ofReader fun cs => if cs.isEmpty then some ((), []) else none)

end DeviceMessages.Definition
