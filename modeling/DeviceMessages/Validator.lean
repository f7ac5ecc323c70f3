import DeviceMessages.Decimal.Binary64
import DeviceMessages.Table
import DeviceMessages.Text.Quoted
import DeviceMessages.Time.Reading

/-!
# Validators

A rule that extracts a value from a message can ask that the value is of a certain kind: a number, a
date, a given text. Such a demand is a validator. It is made once from its parameters, and answers
for each text whether it accepts it.

Of those that are there from the start, numbers and durations may have blanks around them; dates and
times may not, unless their format has them.
-/

namespace DeviceMessages

/-- A demand on the text of a value. -/
structure Validator where
  accepts : String → Bool

/-- What can be wrong when a validator is made. -/
inductive ValidatorError where
  | unknown (name : String)
  | wrongCount (validator : String) (expected got : Nat)
  | timeFormat (validator format : String)
deriving DecidableEq

def ValidatorError.message : ValidatorError → String
  | .unknown name => s!"unknown validator: {name}"
  | .wrongCount validator expected got =>
    s!"arity error: {validator} expects {expected} parameter(s), got {got}"
  | .timeFormat validator format =>
    s!"argument error in {validator}: invalid time format " ++ Text.quoted format

abbrev Validator.Maker := List String → Except ValidatorError Validator

/-- The validators that rules can name. -/
abbrev Validators := Table Validator.Maker

namespace Validators

def create (validators : Validators) (name : String) (parameters : List String) :
    Except ValidatorError Validator :=
  match validators.find? name with
  | some maker => maker parameters
  | none => .error (.unknown name)

/-- The validators as they are shown to the user. -/
def describe (validators : Validators) : String :=
  "ValidatorRegistry \x7b validators: " ++ Text.quotedList validators.names ++ " \x7d"

end Validators

/-! ## The validators of all rules -/

namespace Validator

open Decimal (isNumeral valueOf)
open Text (trim splitOn)

/-- Numerals of finite doubles. -/
def isNumeric : Validator :=
  ⟨fun value => (Decimal.finite? (trim value.toList)).isSome⟩

/-- Integers of 64 bits with a sign. -/
def isInteger : Validator :=
  ⟨fun value => (Decimal.signed64? (trim value.toList)).isSome⟩

/-- Whether the parts between the colons make a duration: seconds, minutes and seconds, or hours,
minutes and seconds. Only the first part may be 60 or more. -/
def isDurationParts (parts : List (List Char)) : Bool :=
  decide (parts.length ≤ 3) && parts.all isNumeral && parts.tail.all fun part => valueOf part < 60

def isDuration : Validator :=
  ⟨fun value => isDurationParts (splitOn ':' (trim value.toList))⟩

def isEqualTo (text : String) : Validator :=
  ⟨fun value => value == text⟩

def isDate (format : Time.TimeFormat) : Validator :=
  ⟨fun value => (format.date? value).isSome⟩

def isTime (format : Time.TimeFormat) : Validator :=
  ⟨fun value => (format.time? value).isSome⟩

def isDateTime (format : Time.TimeFormat) : Validator :=
  ⟨fun value => (format.dateTime? value).isSome⟩

/-! ## Making them -/

/-- A validator without parameters. -/
def plain (name : String) (validator : Validator) : Maker
  | [] => .ok validator
  | parameters => .error (.wrongCount name 0 parameters.length)

/-- A validator with a time format, which has a default. -/
def timed (name default : String) (validator : Time.TimeFormat → Validator) : Maker :=
  let ofFormat (source : String) : Except ValidatorError Validator :=
    match Time.TimeFormat.parse? source with
    | some format => .ok (validator format)
    | none => .error (.timeFormat name source)
  fun
  | [] => ofFormat default
  | [source] => ofFormat source
  | parameters => .error (.wrongCount name 1 parameters.length)

def makeIsEqualTo : Maker
  | [text] => .ok (isEqualTo text)
  | parameters => .error (.wrongCount "is_equal_to" 1 parameters.length)

end Validator

/-- The validators that every rule can name unless they are replaced. -/
def Validators.builtin : Validators :=
  Table.empty.insertAll [
    ("is_numeric", Validator.plain "is_numeric" Validator.isNumeric),
    ("is_integer", Validator.plain "is_integer" Validator.isInteger),
    ("is_duration", Validator.plain "is_duration" Validator.isDuration),
    ("is_equal_to", Validator.makeIsEqualTo),
    ("is_date", Validator.timed "is_date" "%d.%m.%Y" Validator.isDate),
    ("is_time", Validator.timed "is_time" "%H:%M:%S" Validator.isTime),
    ("is_datetime", Validator.timed "is_datetime" "%Y-%m-%d %H:%M:%S" Validator.isDateTime)]

end DeviceMessages
