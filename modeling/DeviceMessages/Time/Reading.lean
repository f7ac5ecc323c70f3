import DeviceMessages.Decimal.Numeral
import DeviceMessages.Time.Format

/-!
# Reading dates and times

A value is read along a format, part by part and from left to right, and has to be used up by it.
Each part that names a number or a word sets a field; in the end the fields have to tell a date, a
time or both.
-/

namespace DeviceMessages.Time

open Decimal (valueOf)
open Text (isBlank)

/-- The names that the characters begin with, any case of letters, and the position of the first one
in the list. Only the first `length` letters of the names have to be there. -/
def readName? (names : List String) (length : Nat) (cs : List Char) : Option (Nat × List Char) :=
  let word := (cs.take length).map Char.toLower
  (names.findIdx? fun name => ((name.toList.take length).map Char.toLower) == word).map
    (·, cs.drop length)

/-- A name of which the first three letters have to be there. For a long name the other letters are
taken as well if all of them follow. -/
def readShortOrLong? (names : List String) (long : Bool) (cs : List Char) :
    Option (Nat × List Char) := do
  let (index, rest) ← readName? names 3 cs
  let ending := ((names.getD index "").toList.drop 3)
  if long && (rest.take ending.length).map Char.toLower == ending then
    some (index, rest.drop ending.length)
  else some (index, rest)

/-- One to `width` digits, or any number of them if there is no width. -/
def readDigits? (width : Option Nat) (cs : List Char) : Option (Nat × List Char) :=
  let ds := (cs.take (width.getD cs.length)).takeWhile Char.isDigit
  if ds.isEmpty then none else some (valueOf ds, cs.drop ds.length)

def readExactly? (count : Nat) (cs : List Char) : Option (Nat × List Char) :=
  let ds := cs.take count
  if ds.length = count ∧ ds.all Char.isDigit then some (valueOf ds, cs.drop count) else none

/-- Exactly `places` digits of a fraction of a second, in nanoseconds. -/
def readPlaces? (places : Nat) (cs : List Char) : Option (Nat × List Char) :=
  (readExactly? places cs).map fun (n, rest) => (n * Nat.pow 10 (9 - places), rest)

/-- Any number of digits of a fraction of a second, in nanoseconds. Digits after the ninth do not
count. -/
def readFraction? (cs : List Char) : Option (Nat × List Char) :=
  let ds := (cs.take 9).takeWhile Char.isDigit
  if ds.isEmpty then none
  else some (valueOf ds * Nat.pow 10 (9 - ds.length), cs.dropWhile Char.isDigit)

/-- The digits that a number may have, or none if it may have any number of them. -/
def Number.width : Number → Option Nat
  | .field .year | .field .isoYear => some 4
  | .field .quarter | .weekdayFromSunday | .weekdayFromMonday => some 1
  | .field .dayOfYear => some 3
  | .field .nanosecond => some 9
  | .field .timestamp => none
  | _ => some 2

/-- Whether a number may have a sign. After a sign it may have any number of digits. -/
def Number.isSigned : Number → Bool
  | .field .year | .field .isoYear => true
  | _ => false

/-- What a number says. A count of hours or days from another origin is brought to that of the
field, if it is a count at all. -/
def Number.settings? (number : Number) (n : Int) : Option (List (Field × Int)) :=
  match number with
  | .field f => some [(f, n)]
  | .hour => if 0 ≤ n ∧ n ≤ 23 then some [(.halfDay, n / 12), (.hourOfHalf, n % 12)] else none
  | .hourOfHalf => if 1 ≤ n ∧ n ≤ 12 then some [(.hourOfHalf, n % 12)] else none
  | .weekdayFromSunday => if 0 ≤ n ∧ n ≤ 6 then some [(.weekday, (n + 6) % 7)] else none
  | .weekdayFromMonday => if 1 ≤ n ∧ n ≤ 7 then some [(.weekday, n - 1)] else none

/-- A number after any white space. -/
def Number.read? (number : Number) (cs : List Char) : Option (Int × List Char) :=
  match number.isSigned, cs.dropWhile isBlank with
  | true, '-' :: rest => (readDigits? none rest).map fun (n, rest) => (-(n : Int), rest)
  | true, '+' :: rest => (readDigits? none rest).map fun (n, rest) => ((n : Int), rest)
  | _, rest => (readDigits? number.width rest).map fun (n, rest) => ((n : Int), rest)

/-- The sign of a distance from universal time: -1 or 1. -/
def offsetSign? : Char → Option Int
  | '+' => some 1
  | '-' | '\u2212' => some (-1)
  | _ => none

/-- The minutes of a distance from universal time. They may be missing at the end of the text if the
reading is lenient. -/
def readOffsetMinutes? (lenient : Bool) : List Char → Option (Nat × List Char)
  | [] => if lenient then some (0, []) else none
  | m₁ :: m₂ :: rest =>
    if m₁.isDigit && m₁ < '6' && m₂.isDigit then some (valueOf [m₁, m₂], rest) else none
  | _ => none

/-- A distance from universal time in seconds: a sign, the hours and the minutes, between which may
stand colons and white space. A lenient reading takes `Z` for none. -/
def readOffset? (lenient : Bool) (cs : List Char) : Option (Int × List Char) :=
  match cs.dropWhile isBlank with
  | [] => none
  | c :: rest =>
    if lenient && (c == 'Z' || c == 'z') then some (0, rest)
    else do
      let sign ← offsetSign? c
      let (hours, rest) ← readExactly? 2 rest
      let (minutes, rest) ←
        readOffsetMinutes? lenient (rest.dropWhile fun c => c == ':' || isBlank c)
      some (sign * (3600 * hours + 60 * minutes : Nat), rest)

namespace Item

/-- Reads the part of a value that stands for a part of a format: what it says, and what is left. -/
def read? (item : Item) (cs : List Char) : Option (List (Field × Int) × List Char) :=
  match item with
  | .literal c =>
    match cs with
    | d :: rest => if c = d then some ([], rest) else none
    | [] => none
  | .blank _ => some ([], cs.dropWhile isBlank)
  | .number kind _ => do
    let (n, rest) ← kind.read? cs
    let settings ← kind.settings? n
    some (settings, rest)
  | .monthName long => do
    let (index, rest) ← readShortOrLong? monthNames long cs
    some ([(.month, (index : Int) + 1)], rest)
  | .weekdayName long => do
    let (index, rest) ← readShortOrLong? weekdayNames long cs
    some ([(.weekday, (index : Int))], rest)
  | .halfDayName _ => do
    let (index, rest) ← readName? ["am", "pm"] 2 cs
    some ([(.halfDay, (index : Int))], rest)
  | .fraction =>
    match cs with
    | '.' :: rest => (readFraction? rest).map fun (n, rest) => ([(.nanosecond, (n : Int))], rest)
    | _ => some ([], cs)
  | .fractionDigits places true =>
    match cs with
    | '.' :: rest =>
      (readPlaces? places rest).map fun (n, rest) => ([(.nanosecond, (n : Int))], rest)
    | _ => some ([], cs)
  | .fractionDigits places false =>
    (readPlaces? places cs).map fun (n, rest) => ([(.nanosecond, (n : Int))], rest)
  | .zoneName => some ([], cs.dropWhile fun c => !isBlank c)
  | .offset style => do
    let (seconds, rest) ← readOffset? (style == .lenient) cs
    some ([(.offset, seconds)], rest)

end Item

namespace TimeFormat

/-- Reads a value along a format, adding to what is known. -/
def readFields? (fs : Fields) : TimeFormat → List Char → Option Fields
  | [], [] => some fs
  | [], _ :: _ => none
  | item :: items, cs => do
    let (settings, rest) ← item.read? cs
    let known ← fs.setAll settings
    readFields? known items rest

/-- What a value says when it is read along a format. -/
def fields? (format : TimeFormat) (value : String) : Option Fields :=
  readFields? Fields.empty format value.toList

def date? (format : TimeFormat) (value : String) : Option Date :=
  (format.fields? value).bind (·.date.toOption)

def time? (format : TimeFormat) (value : String) : Option TimeOfDay :=
  (format.fields? value).bind (·.time.toOption)

def dateTime? (format : TimeFormat) (value : String) : Option DateTime :=
  (format.fields? value).bind (·.dateTime?)

end TimeFormat

end DeviceMessages.Time
