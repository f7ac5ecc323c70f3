import DeviceMessages.Format.Parser
import DeviceMessages.Format.Render
import DeviceMessages.Table
import DeviceMessages.Text.Quoted
import DeviceMessages.Time.Writing

/-!
# Generators

A template can call functions. The call is bound to its arguments when the template is compiled;
what comes out of that is a generator, which is run each time a message is written. A generator is
given what has been written of the message before it, and answers what the message is after it, if
it can be written. It is meant to add to what was there (`Generator.adding`), but nothing keeps it
from changing that.

These functions are there from the start:

* `repeat(character, count)` writes one character many times. A numeral is the code of a byte.
* `now(format)` writes the time.
* `checksum(format, numeric)` writes the exclusive or of the bytes before it, first as a decimal
  number through a field format, unless `numeric` is `false`, and then as a byte.
-/

namespace DeviceMessages

/-- A bound function call: what it makes of the part of a message that has been written before it,
given what the clock shows. -/
structure Generator where
  apply : Time.Moment → Bytes → Option Bytes

/-- What can be wrong with an argument of a function. -/
inductive ArgumentFault where
  | codeOutOfRange (code : Nat)
  | emptyCharacter
  | countNotNumeral (text : String)
  | countTooLarge (count : Nat)
  | timeFormat (format : String)
  | fieldFormat (format : String) (error : FormatError)
deriving DecidableEq

inductive CallError where
  | unknownFunction (name : String)
  | tooFewArguments (function : String) (expected got : Nat)
  | badArgument (function : String) (fault : ArgumentFault)
deriving DecidableEq

abbrev Generator.Maker := List String → Except CallError Generator

/-- The functions that templates can call. -/
abbrev Functions := Table Generator.Maker

namespace Generator

/-- The generator that adds bytes, given what the clock shows and what has been written before. -/
def adding (output : Time.Moment → Bytes → Option Bytes) : Generator :=
  ⟨fun moment before => (output moment before).map (before ++ ·)⟩

def maxRepeat : Nat := 65535

end Generator

def ArgumentFault.message : ArgumentFault → String
  | .codeOutOfRange code => s!"character code {code} out of range"
  | .emptyCharacter => "empty character argument"
  | .countNotNumeral text => "count must be a non-negative integer, got " ++ Text.quoted text
  | .countTooLarge count => s!"count {count} exceeds {Generator.maxRepeat}"
  | .timeFormat format => "invalid time format " ++ Text.quoted format
  | .fieldFormat format error => Text.quoted format ++ ": " ++ error.message

def CallError.message : CallError → String
  | .unknownFunction name => s!"unknown function: {name}"
  | .tooFewArguments function expected got =>
    s!"arity error: {function} expects at least {expected} argument(s), got {got}"
  | .badArgument function fault => s!"argument error in {function}: {fault.message}"

namespace Functions

def call (functions : Functions) (name : String) (arguments : List String) :
    Except CallError Generator :=
  match functions.find? name with
  | some maker => maker arguments
  | none => .error (.unknownFunction name)

/-- The functions as they are shown to the user. -/
def describe (functions : Functions) : String :=
  "FunctionRegistry \x7b functions: " ++ Text.quotedList functions.names ++ " \x7d"

end Functions

namespace Generator

open Decimal (unsigned64? digits)

/-! ## Fill characters -/

def repeated (unit : Bytes) (count : Nat) : Generator :=
  adding fun _ _ => some (List.replicate count unit).flatten

/-- What `repeat` repeats: the byte of a code, or the first character. -/
def repeatUnit (argument : String) : Except ArgumentFault Bytes :=
  match unsigned64? (Text.trim argument.toList), argument.toList with
  | some code, _ => if code < 256 then .ok [UInt8.ofNat code] else .error (.codeOutOfRange code)
  | none, c :: _ => .ok (String.utf8EncodeChar c)
  | none, [] => .error .emptyCharacter

/-- How often `repeat` repeats it. -/
def repeatCount (argument : String) : Except ArgumentFault Nat :=
  match unsigned64? (Text.trim argument.toList) with
  | none => .error (.countNotNumeral argument)
  | some count => if count ≤ maxRepeat then .ok count else .error (.countTooLarge count)

/-- The arguments of `repeat` are checked in order, and further ones are ignored. -/
def makeRepeat : Maker
  | character :: count :: _ =>
    match repeatUnit character, repeatCount count with
    | .ok unit, .ok count => .ok (repeated unit count)
    | .error fault, _ => .error (.badArgument "repeat" fault)
    | .ok _, .error fault => .error (.badArgument "repeat" fault)
  | arguments => .error (.tooFewArguments "repeat" 2 arguments.length)

/-! ## The time -/

/-- The time of the clock in a format, or nothing if the format cannot be written. -/
def timeStamp (format : Time.TimeFormat) : Generator :=
  adding fun moment _ => some (Text.utf8 (String.ofList ((format.write? moment).getD [])))

/-- Only the first argument of `now` counts. -/
def makeNow : Maker
  | format :: _ =>
    match Time.TimeFormat.parse? format with
    | some items => .ok (timeStamp items)
    | none => .error (.badArgument "now" (.timeFormat format))
  | [] => .error (.tooFewArguments "now" 1 0)

/-! ## Checksums -/

/-- The byte that begins a framed message. -/
def startOfText : UInt8 := 0x02

def xorSum (bytes : Bytes) : UInt8 :=
  bytes.foldl (· ^^^ ·) 0

/-- The checksum of a message. A byte that begins a frame does not count. -/
def checksum : Bytes → UInt8
  | [] => 0
  | b :: bytes => if b = startOfText then xorSum bytes else xorSum (b :: bytes)

/-- The checksum of what comes before, as a number through a format if there is one, and as a byte.
-/
def checksumOutput (format : Option FieldFormat) (before : Bytes) : Option Bytes :=
  let sum := checksum before
  let numeric := match format with
    | some f => (f.render (String.ofList (digits sum.toNat))).map Text.utf8
    | none => some []
  numeric.map (· ++ [sum])

/-- The format of `checksum` has to be a format also if the number is not written. -/
def makeChecksum : Maker
  | source :: rest =>
    match FieldFormat.parse source with
    | .ok format =>
      let numeric := if rest.head? = some "false" then none else some format
      .ok (adding fun _ before => checksumOutput numeric before)
    | .error e => .error (.badArgument "checksum" (.fieldFormat source e))
  | [] => .error (.tooFewArguments "checksum" 1 0)

end Generator

/-- The functions that every template can call unless they are replaced. -/
def Functions.builtin : Functions :=
  Table.empty.insertAll [
    ("repeat", Generator.makeRepeat), ("now", Generator.makeNow),
    ("checksum", Generator.makeChecksum)]

end DeviceMessages
