import DeviceMessages.Definition.Token

/-!
# The grammar of definition files

A file is a row of sections:

    template NAME = "TEXT";
    scanner NAME { MESSAGE … }

A message is `message NAME { RULE … }`, and a rule is `NAME : LOCATION [VALIDATORS] ;` where the
list of validators may be missing. A location is `offset(NUMBER, NUMBER)` or `between("BYTES",
"BYTES")`. A validator is a name, which strings in parentheses may follow.

The tree that comes of reading a file has its numbers and strings as they are written. What they
mean is found out afterwards, so that a file with a mistake in its form is always reported as such.
-/

namespace DeviceMessages.Definition

inductive WrittenLocation where
  | offset (position length : List Char)
  | between (opening closing : List Char)
deriving DecidableEq

structure WrittenValidator where
  name : String
  parameters : List (List Char)
deriving DecidableEq

structure WrittenRule where
  name : String
  location : WrittenLocation
  validators : List WrittenValidator
deriving DecidableEq

structure WrittenMessage where
  name : String
  rules : List WrittenRule
deriving DecidableEq

/-- A section of a file, as it is written. -/
inductive Section where
  | template (name : String) (body : List Char)
  | scanner (name : String) (messages : List WrittenMessage)
deriving DecidableEq

namespace Grammar

open Recognizer

def offsetLocation : Recognizer WrittenLocation := named do
  fixed "offset"
  fixed "("
  let position ← number
  fixed ","
  let length ← number
  fixed ")"
  succeed (.offset position length)

def betweenLocation : Recognizer WrittenLocation := named do
  fixed "between"
  fixed "("
  let opening ← quotedBody
  fixed ","
  let closing ← quotedBody
  fixed ")"
  succeed (.between opening closing)

def location : Recognizer WrittenLocation :=
  named (orElse offsetLocation betweenLocation)

def parameters : Recognizer (List (List Char)) := do
  fixed "("
  let strings ← orDefault [] (separated (fixed ",") quotedBody)
  fixed ")"
  succeed strings

/-- A validator, which may have no parameters. -/
def validator : Recognizer WrittenValidator := named do
  let name ← name
  let parameters ← orDefault [] parameters
  succeed ⟨name, parameters⟩

/-- At least one validator, between brackets. -/
def validators : Recognizer (List WrittenValidator) := named do
  fixed "["
  let validators ← separated (fixed ",") validator
  fixed "]"
  succeed validators

/-- A rule, which may have no validators. -/
def rule : Recognizer WrittenRule := named do
  let name ← name
  fixed ":"
  let location ← location
  let validators ← orDefault [] validators
  fixed ";"
  succeed ⟨name, location, validators⟩

def message : Recognizer WrittenMessage := named do
  fixed "message"
  let name ← name
  fixed "\x7b"
  let rules ← many rule
  fixed "\x7d"
  succeed ⟨name, rules⟩

def template : Recognizer Section := named do
  fixed "template"
  let name ← name
  fixed "="
  let body ← quotedBody
  fixed ";"
  succeed (.template name body)

def scanner : Recognizer Section := named do
  fixed "scanner"
  let name ← name
  fixed "\x7b"
  let messages ← many message
  fixed "\x7d"
  succeed (.scanner name messages)

def file : Recognizer (List Section) := named do
  token fun cs => some ((), cs)
  let sections ← many (orElse template scanner)
  endOfText
  succeed sections

end Grammar

end DeviceMessages.Definition
