import DeviceMessages.Template.Basic

/-!
# Compiling templates

A template is compiled once, and all errors of its text are found then. The text is read from left
to right as a row of pieces:

* a character that stands for itself, also one after a backslash,
* the code of an ASCII character between `#` and `;`,
* a backslash before a line break, which stands for nothing,
* a field reference `$(key)` or `$(key:format)`,
* a call `$function(arguments)`.

Each piece ends before the next one is looked at, and a fault is reported with the byte offset at
which its piece starts. `Fragment.ofPieces` joins neighbouring characters to literal texts.
-/

namespace DeviceMessages

open Decimal (valueOf)
open Text (offsetOf)

/-- The parts that can be left open at the end of a template text. -/
inductive Unclosed where
  | escape
  | asciiCode
  | command
  | functionName
  | parameterList
  | fieldKey
  | fieldFormat
deriving DecidableEq

def Unclosed.name : Unclosed → String
  | .escape => "escape sequence"
  | .asciiCode => "ASCII code"
  | .command => "command"
  | .functionName => "function name"
  | .parameterList => "parameter list"
  | .fieldKey => "field reference"
  | .fieldFormat => "field format"

/-- What can be wrong with a template text. Offsets count bytes. -/
inductive TemplateError where
  | call (offset : Nat) (error : CallError)
  | illegalCode (code : String) (offset : Nat)
  | unterminated (part : Unclosed) (offset : Nat)
  | emptyKey (offset : Nat)
  | badFormat (key format : String) (error : FormatError)
deriving DecidableEq

def TemplateError.message : TemplateError → String
  | .call offset error => s!"function call at offset {offset}: {error.message}"
  | .illegalCode code offset => s!"illegal ASCII code {Text.quoted code} at offset {offset}"
  | .unterminated part offset =>
    s!"unterminated {part.name} starting at offset {offset}"
  | .emptyKey offset => s!"empty field key at offset {offset}"
  | .badFormat key format error =>
    "invalid format " ++ Text.quoted format ++ " for field '" ++ key ++ "': " ++ error.message

inductive Piece where
  | char (c : Char)
  /-- A line break in the template text that is not part of the message. -/
  | wrap
  | field (key : String) (format : Option FieldFormat)
  | call (function : String) (generator : Generator)

namespace Piece

/-- The largest code that may be written between `#` and `;`. -/
def maxCode : Nat := 126

/-- The format of a field reference. No format text is no format. -/
def fieldFormat? (format : List Char) : Except FormatError (Option FieldFormat) :=
  if format.isEmpty then .ok none else (FieldFormat.parse (String.ofList format)).map some

/-- The arguments between the parentheses of a call. No text is no argument, not an empty one. -/
def arguments (text : List Char) : List String :=
  if text.isEmpty then [] else (Text.splitOn ',' text).map String.ofList

/-- What follows a backslash. -/
def readEscape (start : Nat) : List Char → Except TemplateError (Piece × List Char)
  | [] => .error (.unterminated .escape start)
  | c :: cs => .ok (if c = '\n' ∨ c = '\r' then .wrap else .char c, cs)

/-- What follows `#`. -/
def readCode (start : Nat) (cs : List Char) : Except TemplateError (Piece × List Char) :=
  let ds := cs.takeWhile Char.isDigit
  match cs.dropWhile Char.isDigit with
  | [] => .error (.unterminated .asciiCode start)
  | c :: rest =>
    if c ≠ ';' then .error (.illegalCode (String.ofList (ds ++ [c])) start)
    else if Decimal.isNumeral ds ∧ valueOf ds ≤ maxCode then
      .ok (.char (Char.ofNat (valueOf ds)), rest)
    else .error (.illegalCode (String.ofList ds) start)

/-- A field reference from its key and the text of its format. -/
def ofField (start : Nat) (key format : List Char) : Except TemplateError Piece :=
  if key.isEmpty then .error (.emptyKey start)
  else
    match fieldFormat? format with
    | .ok f => .ok (.field (String.ofList key) f)
    | .error e => .error (.badFormat (String.ofList key) (String.ofList format) e)

/-- What follows `$(`. -/
def readField (start : Nat) (cs : List Char) : Except TemplateError (Piece × List Char) :=
  let key := cs.takeWhile fun c => c != ':' && c != ')'
  match cs.dropWhile fun c => c != ':' && c != ')' with
  | [] => .error (.unterminated .fieldKey start)
  | c :: rest =>
    if c = ')' then (ofField start key []).map (·, rest)
    else
      match rest.dropWhile (· != ')') with
      | [] => .error (.unterminated .fieldFormat start)
      | _ :: after => (ofField start key (rest.takeWhile (· != ')'))).map (·, after)

/-- What follows `$` when it is not a field reference. -/
def readCall (functions : Functions) (start : Nat) (cs : List Char) :
    Except TemplateError (Piece × List Char) :=
  let name := String.ofList (cs.takeWhile (· != '('))
  match cs.dropWhile (· != '(') with
  | [] => .error (.unterminated .functionName start)
  | _ :: rest =>
    match rest.dropWhile (· != ')') with
    | [] => .error (.unterminated .parameterList start)
    | _ :: after =>
      match functions.call name (arguments (rest.takeWhile (· != ')'))) with
      | .ok generator => .ok (.call name generator, after)
      | .error e => .error (.call start e)

/-- The first piece of a text that begins with `c`, and what is left after it. The piece starts at
the byte offset `start` of the template text. -/
def read (functions : Functions) (start : Nat) (c : Char) (cs : List Char) :
    Except TemplateError (Piece × List Char) :=
  if c = '\\' then readEscape start cs
  else if c = '#' then readCode start cs
  else if c = '$' then
    match cs with
    | [] => .error (.unterminated .command start)
    | '(' :: rest => readField start rest
    | _ => readCall functions start cs
  else .ok (.char c, cs)

/-! ## Every piece takes at least one character -/

theorem length_lt_of_dropWhile_eq_cons {p : Char → Bool} {cs rest : List Char} {c : Char}
    (h : cs.dropWhile p = c :: rest) : rest.length < cs.length := by
  have hle := (List.dropWhile_sublist p (l := cs)).length_le
  rw [h, List.length_cons] at hle
  omega

theorem eq_of_map_eq_ok {x : Except TemplateError Piece} {p : Piece} {rest after : List Char}
    (h : x.map (·, after) = .ok (p, rest)) : rest = after := by
  cases x with
  | error e => cases h
  | ok piece => cases h; rfl

theorem length_le_of_readEscape {start : Nat} {cs rest : List Char} {p : Piece}
    (h : readEscape start cs = .ok (p, rest)) : rest.length ≤ cs.length := by
  cases cs with
  | nil => cases h
  | cons c cs => cases h; simp

theorem length_le_of_readCode {start : Nat} {cs rest : List Char} {p : Piece}
    (h : readCode start cs = .ok (p, rest)) : rest.length ≤ cs.length := by
  unfold readCode at h
  dsimp only at h
  split at h
  · cases h
  · next c rest' heq =>
    have hlt := length_lt_of_dropWhile_eq_cons heq
    split at h
    · cases h
    · split at h
      · cases h; omega
      · cases h

theorem length_le_of_readField {start : Nat} {cs rest : List Char} {p : Piece}
    (h : readField start cs = .ok (p, rest)) : rest.length ≤ cs.length := by
  unfold readField at h
  dsimp only at h
  split at h
  · cases h
  · next c rest' heq =>
    have hlt := length_lt_of_dropWhile_eq_cons heq
    split at h
    · rw [eq_of_map_eq_ok h]; omega
    · split at h
      · cases h
      · next c' after heq' =>
        have hlt' := length_lt_of_dropWhile_eq_cons heq'
        rw [eq_of_map_eq_ok h]; omega

theorem length_le_of_readCall {functions : Functions} {start : Nat} {cs rest : List Char}
    {p : Piece} (h : readCall functions start cs = .ok (p, rest)) : rest.length ≤ cs.length := by
  unfold readCall at h
  dsimp only at h
  split at h
  · cases h
  · next c rest' heq =>
    have hlt := length_lt_of_dropWhile_eq_cons heq
    split at h
    · cases h
    · next c' after heq' =>
      have hlt' := length_lt_of_dropWhile_eq_cons heq'
      split at h
      · cases h; omega
      · cases h

theorem length_le_of_read {functions : Functions} {start : Nat} {c : Char} {cs rest : List Char}
    {p : Piece} (h : read functions start c cs = .ok (p, rest)) : rest.length ≤ cs.length := by
  unfold read at h
  split at h
  · exact length_le_of_readEscape h
  · split at h
    · exact length_le_of_readCode h
    · split at h
      · split at h
        · cases h
        · next rest' =>
          have := length_le_of_readField h
          simp only [List.length_cons]
          omega
        · exact length_le_of_readCall h
      · cases h; omega

/-- The pieces of the part `cs` of a template text `source` that it ends with. -/
def readAll (functions : Functions) (source cs : List Char) : Except TemplateError (List Piece) :=
  match cs with
  | [] => .ok []
  | c :: cs =>
    match _h : read functions (offsetOf source (c :: cs)) c cs with
    | .error e => .error e
    | .ok (piece, rest) => (readAll functions source rest).map (piece :: ·)
termination_by cs.length
decreasing_by
  have := length_le_of_read _h
  simp only [List.length_cons]
  omega

end Piece

/-- Fragments with a character in front, which joins a literal text that they begin with. -/
def Fragment.pushChar (c : Char) : List Fragment → List Fragment
  | .literal text :: fs => .literal (String.singleton c ++ text) :: fs
  | fs => .literal (String.singleton c) :: fs

def Fragment.ofPieces : List Piece → List Fragment
  | [] => []
  | .char c :: ps => Fragment.pushChar c (ofPieces ps)
  | .wrap :: ps => ofPieces ps
  | .field key format :: ps => .field key format :: ofPieces ps
  | .call function generator :: ps => .call function generator :: ofPieces ps

namespace Template

def compileFragments (functions : Functions) (source : String) :
    Except TemplateError (List Fragment) :=
  (Piece.readAll functions source.toList source.toList).map Fragment.ofPieces

def compile (functions : Functions) (name source : String) : Except TemplateError Template :=
  (compileFragments functions source).map fun fragments => ⟨name, source, fragments⟩

end Template

end DeviceMessages
