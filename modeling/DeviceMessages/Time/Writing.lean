import DeviceMessages.Decimal.Numeral
import DeviceMessages.Time.Format

/-!
# Writing the time

A moment is written part by part along a format. Numbers are filled up to the width of their part
with what the format asks for. A format with a part that can only be read writes nothing at all.
-/

namespace DeviceMessages.Time

open Decimal (digits paddedDigits)

/-- A number filled up to a width on its left. -/
def padNumber (padding : Padding) (width : Nat) (n : Nat) : List Char :=
  match padding with
  | .none => digits n
  | .zeros => paddedDigits width n
  | .spaces => List.replicate (width - (digits n).length) ' ' ++ digits n

/-- A number with a sign, filled up to a width that counts the sign. Zeros go after the sign. -/
def padSigned (padding : Padding) (width : Nat) (n : Int) : List Char :=
  let sign := if n < 0 then '-' else '+'
  match padding with
  | .none => sign :: digits n.natAbs
  | .zeros => sign :: paddedDigits (width - 1) n.natAbs
  | .spaces =>
    List.replicate (width - ((digits n.natAbs).length + 1)) ' ' ++ sign :: digits n.natAbs

/-- A year: four digits, or a sign and at least four digits for years that do not fit. -/
def writeYear (padding : Padding) (year : Int) : List Char :=
  if 0 ≤ year ∧ year < 10000 then padNumber padding 4 year.toNat else padSigned padding 5 year

/-- A timestamp, filled up to nine digits if the format asks for it. -/
def writeTimestamp (padding : Padding) (n : Int) : List Char :=
  if 0 ≤ n then padNumber padding 9 n.toNat
  else
    match padding with
    | .spaces => List.replicate (9 - ((digits n.natAbs).length + 1)) ' ' ++ '-' :: digits n.natAbs
    | padding => '-' :: padNumber padding 8 n.natAbs

/-- The hour of half a day as clocks show it, from 1 to 12. -/
def clockHour (hour : Nat) : Nat :=
  if hour % 12 = 0 then 12 else hour % 12

def Number.write (number : Number) (padding : Padding) (m : Moment) : List Char :=
  let date := m.dateTime.date
  let time := m.dateTime.time
  match number with
  | .field f =>
    match f with
    | .year => writeYear padding date.year
    | .isoYear => writeYear padding date.isoWeek.year
    | .century => padNumber padding 2 (date.year / 100).toNat
    | .yearOfCentury => padNumber padding 2 (date.year % 100).toNat
    | .isoYearOfCentury => padNumber padding 2 (date.isoWeek.year % 100).toNat
    | .quarter => padNumber padding 1 date.quarter
    | .month => padNumber padding 2 date.month
    | .day => padNumber padding 2 date.day
    | .weekFromSunday => padNumber padding 2 (date.weekFrom 6)
    | .weekFromMonday => padNumber padding 2 (date.weekFrom 0)
    | .isoWeek => padNumber padding 2 date.isoWeek.week
    | .weekday => padNumber padding 1 date.weekday
    | .dayOfYear => padNumber padding 3 date.dayOfYear
    | .halfDay => padNumber padding 1 (time.hour / 12)
    | .hourOfHalf => padNumber padding 2 (time.hour % 12)
    | .minute => padNumber padding 2 time.minute
    | .second => padNumber padding 2 time.second
    | .nanosecond => padNumber padding 9 time.nanosecond
    | .timestamp => writeTimestamp padding m.timestamp
    | .offset => padSigned padding 1 m.offset
  | .hour => padNumber padding 2 time.hour
  | .hourOfHalf => padNumber padding 2 (clockHour time.hour)
  | .weekdayFromSunday => padNumber padding 1 ((date.weekday + 1) % 7)
  | .weekdayFromMonday => padNumber padding 1 (date.weekday + 1)

/-- A name, or its first three letters. -/
def writeName (names : List String) (long : Bool) (index : Nat) : List Char :=
  let name := (names.getD index "").toList
  if long then name else name.take 3

/-- The fraction of a second with as many groups of three digits as it needs, after a point. -/
def writeFraction (nanosecond : Nat) : List Char :=
  if nanosecond = 0 then []
  else if nanosecond % 1000000 = 0 then '.' :: paddedDigits 3 (nanosecond / 1000000)
  else if nanosecond % 1000 = 0 then '.' :: paddedDigits 6 (nanosecond / 1000)
  else '.' :: paddedDigits 9 nanosecond

/-- A distance from universal time, to the minute unless the style says otherwise. It cannot be
written in a way that is for reading only. -/
def writeOffset? (style : OffsetStyle) (offset : Int) : Option (List Char) :=
  let sign := if offset < 0 then '-' else '+'
  let seconds := offset.natAbs
  let rounded := (seconds + 30) / 60
  match style with
  | .plain => some (sign :: paddedDigits 2 (rounded / 60) ++ paddedDigits 2 (rounded % 60))
  | .colon => some (sign :: paddedDigits 2 (rounded / 60) ++ ':' :: paddedDigits 2 (rounded % 60))
  | .seconds =>
    some (sign :: paddedDigits 2 (seconds / 3600) ++ ':' :: paddedDigits 2 (seconds / 60 % 60) ++
      ':' :: paddedDigits 2 (seconds % 60))
  | .hours => some (sign :: paddedDigits 2 (seconds / 3600))
  | .lenient => none

/-- A part of a format, written for a moment. -/
def Item.write? (m : Moment) : Item → Option (List Char)
  | .literal c | .blank c => some [c]
  | .number kind padding => some (kind.write padding m)
  | .monthName long => some (writeName monthNames long (m.dateTime.date.month - 1))
  | .weekdayName long => some (writeName weekdayNames long m.dateTime.date.weekday)
  | .halfDayName upper =>
    let name := if m.dateTime.time.hour < 12 then ['a', 'm'] else ['p', 'm']
    some (if upper then name.map Char.toUpper else name)
  | .fraction => some (writeFraction m.dateTime.time.nanosecond)
  | .fractionDigits places point =>
    let ds := paddedDigits places (m.dateTime.time.nanosecond / Nat.pow 10 (9 - places))
    some (if point then '.' :: ds else ds)
  | .zoneName => writeOffset? .colon m.offset
  | .offset style => writeOffset? style m.offset

/-- The text that a format writes for a moment, if all its parts can be written. -/
def TimeFormat.write? (m : Moment) : TimeFormat → Option (List Char)
  | [] => some []
  | item :: items => do
    let text ← item.write? m
    let rest ← write? m items
    some (text ++ rest)

end DeviceMessages.Time
