import DeviceMessages.Text.Basic
import DeviceMessages.Time.Field

/-!
# Time formats

A time format is a text in which `%` and a letter stand for a part of a date or time; everything
else stands for itself. The same format is used to write the time and to check that a value is a
date or time. A text with an unknown or unfinished specifier is no format.
-/

namespace DeviceMessages.Time

/-- What fills a number up to its width. -/
inductive Padding where
  | none
  | zeros
  | spaces
deriving DecidableEq

/-- The numbers that a format can name. They are those of the fields, but for the hour of a day and
its half, and for days of the week by two ways of counting. -/
inductive Number where
  | field (f : Field)
  /-- The hour of the day, from 0 to 23. -/
  | hour
  /-- The hour of half a day, from 1 to 12. -/
  | hourOfHalf
  /-- The day of the week, from Sunday, which is 0. -/
  | weekdayFromSunday
  /-- The day of the week, from Monday, which is 1. -/
  | weekdayFromMonday
deriving DecidableEq

/-- How a distance from universal time is written. -/
inductive OffsetStyle where
  | plain
  | colon
  | seconds
  | hours
  /-- Any way of writing it, for reading only. -/
  | lenient
deriving DecidableEq

inductive Item where
  | literal (c : Char)
  /-- White space, which stands for any white space when a text is read. -/
  | blank (c : Char)
  | number (n : Number) (padding : Padding)
  | monthName (long : Bool)
  | weekdayName (long : Bool)
  /-- The half of the day as a word of two letters. -/
  | halfDayName (upper : Bool)
  /-- A point and the fraction of the second, or nothing if there is no fraction. -/
  | fraction
  /-- A given number of digits of the fraction of the second, after a point or without one. -/
  | fractionDigits (places : Nat) (point : Bool)
  | zoneName
  | offset (style : OffsetStyle)
deriving DecidableEq

abbrev TimeFormat := List Item

namespace Item

/-- A number of a field with leading zeros. -/
def padded (f : Field) : Item :=
  .number (.field f) .zeros

/-- The date as it is written with slashes: month, day, year of the century. -/
def slashDate : TimeFormat :=
  [padded .month, .literal '/', padded .day, .literal '/', padded .yearOfCentury]

/-- The date from the year down to the day. -/
def dashDate : TimeFormat :=
  [padded .year, .literal '-', padded .month, .literal '-', padded .day]

def clock : TimeFormat :=
  [.number .hour .zeros, .literal ':', padded .minute]

def clockWithSecond : TimeFormat :=
  clock ++ [.literal ':', padded .second]

/-- What a specifier of one letter stands for. -/
def ofLetter? : Char → Option TimeFormat
  | 'A' => some [.weekdayName true]
  | 'B' => some [.monthName true]
  | 'C' => some [padded .century]
  | 'D' | 'x' => some slashDate
  | 'F' => some dashDate
  | 'G' => some [padded .isoYear]
  | 'H' => some [.number .hour .zeros]
  | 'I' => some [.number .hourOfHalf .zeros]
  | 'M' => some [padded .minute]
  | 'P' => some [.halfDayName false]
  | 'R' => some clock
  | 'S' => some [padded .second]
  | 'T' | 'X' => some clockWithSecond
  | 'U' => some [padded .weekFromSunday]
  | 'V' => some [padded .isoWeek]
  | 'W' => some [padded .weekFromMonday]
  | 'Y' => some [padded .year]
  | 'Z' => some [.zoneName]
  | 'a' => some [.weekdayName false]
  | 'b' | 'h' => some [.monthName false]
  | 'c' => some ([.weekdayName false, .blank ' ', .monthName false, .blank ' ',
      .number (.field .day) .spaces, .blank ' '] ++ clockWithSecond ++ [.blank ' ', padded .year])
  | 'd' => some [padded .day]
  | 'e' => some [.number (.field .day) .spaces]
  | 'f' => some [padded .nanosecond]
  | 'g' => some [padded .isoYearOfCentury]
  | 'j' => some [padded .dayOfYear]
  | 'k' => some [.number .hour .spaces]
  | 'l' => some [.number .hourOfHalf .spaces]
  | 'm' => some [padded .month]
  | 'n' => some [.blank '\n']
  | 'p' => some [.halfDayName true]
  | 'q' => some [.number (.field .quarter) .none]
  | 'r' => some ([.number .hourOfHalf .zeros, .literal ':', padded .minute, .literal ':',
      padded .second, .blank ' ', .halfDayName true])
  | 's' => some [.number (.field .timestamp) .none]
  | 't' => some [.blank '\t']
  | 'u' => some [.number .weekdayFromMonday .none]
  | 'v' => some [.number (.field .day) .spaces, .literal '-', .monthName false, .literal '-',
      padded .year]
  | 'w' => some [.number .weekdayFromSunday .none]
  | 'y' => some [padded .yearOfCentury]
  | 'z' => some [.offset .plain]
  | '+' => some (dashDate ++ [.literal 'T'] ++ clockWithSecond ++ [.fraction, .offset .colon])
  | '%' => some [.literal '%']
  | _ => none

/-- The padding that a sign after the percent sign asks for. -/
def padding? : Char → Option Padding
  | '-' => some .none
  | '0' => some .zeros
  | '_' => some .spaces
  | _ => none

/-- What a letter after a padding sign stands for. Only a single number can be padded. -/
def paddedLetter? (padding : Padding) (letter : Char) : Option TimeFormat :=
  match ofLetter? letter with
  | some [.number n _] => some [.number n padding]
  | _ => none

/-- The number of digits that a fraction of a second can be asked to have. -/
def places? : Char → Option Nat
  | '3' => some 3
  | '6' => some 6
  | '9' => some 9
  | _ => none

/-- What follows a percent sign: the parts it stands for, and how many characters it has. -/
def specifier? : List Char → Option (TimeFormat × Nat)
  | ':' :: 'z' :: _ => some ([.offset .colon], 2)
  | ':' :: ':' :: 'z' :: _ => some ([.offset .seconds], 3)
  | ':' :: ':' :: ':' :: 'z' :: _ => some ([.offset .hours], 4)
  | '.' :: 'f' :: _ => some ([.fraction], 2)
  | '.' :: d :: 'f' :: _ => (places? d).map fun n => ([.fractionDigits n true], 3)
  | '#' :: 'z' :: _ => some ([.offset .lenient], 2)
  | c :: d :: _ =>
    match padding? c, places? c with
    | some padding, _ => (paddedLetter? padding d).map (·, 2)
    | none, some n => if d = 'f' then some ([.fractionDigits n false], 2) else none
    | none, none => (ofLetter? c).map (·, 1)
  | [c] => (ofLetter? c).map (·, 1)
  | [] => none

end Item

/-- Reads a format, of which the first `skip` characters belong to a specifier that has been read.
-/
def TimeFormat.ofChars? : Nat → List Char → Option TimeFormat
  | _, [] => some []
  | skip + 1, _ :: cs => ofChars? skip cs
  | 0, '%' :: cs => do
    let (items, length) ← Item.specifier? cs
    let rest ← ofChars? length cs
    some (items ++ rest)
  | 0, c :: cs =>
    (ofChars? 0 cs).map fun rest => (if Text.isBlank c then .blank c else .literal c) :: rest

def TimeFormat.parse? (source : String) : Option TimeFormat :=
  TimeFormat.ofChars? 0 source.toList

/-! ## Names -/

/-- The names of the months, and of how many letters of each the short name has. -/
def monthNames : List String :=
  ["January", "February", "March", "April", "May", "June", "July", "August", "September", "October",
    "November", "December"]

/-- The names of the days of the week, from Monday. -/
def weekdayNames : List String :=
  ["Monday", "Tuesday", "Wednesday", "Thursday", "Friday", "Saturday", "Sunday"]

end DeviceMessages.Time
