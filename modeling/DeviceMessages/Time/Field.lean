import DeviceMessages.Time.Calendar

/-!
# The fields of a date and time

A date and time can be told in many ways, each by a few numbers: year, month and day, or year, week
and weekday, or a timestamp. The fields are those numbers. A text that is read sets some of them;
`Fields` holds what has been set, and `set` refuses a number that its field cannot have or that
contradicts an earlier one.
-/

namespace DeviceMessages.Time

/-- A number that says something about a date or time. -/
inductive Field where
  | year
  | century
  | yearOfCentury
  | isoYear
  | isoYearOfCentury
  | quarter
  | month
  | day
  /-- The week of the year, when weeks begin on Sunday. -/
  | weekFromSunday
  /-- The week of the year, when weeks begin on Monday. -/
  | weekFromMonday
  | isoWeek
  /-- The day of the week, from Monday, which is 0. -/
  | weekday
  | dayOfYear
  /-- The half of the day, 0 before noon and 1 from noon on. -/
  | halfDay
  /-- The hour within the half of the day, from 0. -/
  | hourOfHalf
  | minute
  | second
  | nanosecond
  | timestamp
  | offset
deriving DecidableEq

namespace Field

/-- The least and the greatest number that a field can have. -/
def range : Field → Int × Int
  | .year | .isoYear | .offset => (-0x80000000, 0x7FFFFFFF)
  | .century | .yearOfCentury | .isoYearOfCentury => (0, 99)
  | .quarter => (1, 4)
  | .month => (1, 12)
  | .day => (1, 31)
  | .weekFromSunday | .weekFromMonday => (0, 53)
  | .isoWeek => (1, 53)
  | .weekday => (0, 6)
  | .dayOfYear => (1, 366)
  | .halfDay => (0, 1)
  | .hourOfHalf => (0, 11)
  | .minute => (0, 59)
  | .second => (0, 60)
  | .nanosecond => (0, 999999999)
  | .timestamp => (-0x8000000000000000, 0x7FFFFFFFFFFFFFFF)

/-- The fields that say something about the date. -/
def ofDate : List Field :=
  [.year, .century, .yearOfCentury, .isoYear, .isoYearOfCentury, .quarter, .month, .day,
    .weekFromSunday, .weekFromMonday, .isoWeek, .weekday, .dayOfYear]

end Field

/-- The number that a date has in a field. A year before year 0 has no century. -/
def Date.field (d : Date) : Field → Option Int
  | .year => some d.year
  | .century => if 0 ≤ d.year then some (d.year / 100) else none
  | .yearOfCentury => if 0 ≤ d.year then some (d.year % 100) else none
  | .isoYear => some d.isoWeek.year
  | .isoYearOfCentury => if 0 ≤ d.isoWeek.year then some (d.isoWeek.year % 100) else none
  | .quarter => some d.quarter
  | .month => some d.month
  | .day => some d.day
  | .weekFromSunday => some (d.weekFrom 6)
  | .weekFromMonday => some (d.weekFrom 0)
  | .isoWeek => some d.isoWeek.week
  | .weekday => some d.weekday
  | .dayOfYear => some d.dayOfYear
  | _ => none

/-- What is known of a date and time. -/
structure Fields where
  get : Field → Option Int

namespace Fields

def empty : Fields := ⟨fun _ => none⟩

/-- Adds what a number says, unless its field cannot have it or is known to be another number. -/
def set (fs : Fields) (f : Field) (n : Int) : Option Fields :=
  if f.range.1 ≤ n ∧ n ≤ f.range.2 then
    match fs.get f with
    | some known => if known = n then some fs else none
    | none => some ⟨fun g => if g = f then some n else fs.get g⟩
  else none

def setAll (fs : Fields) : List (Field × Int) → Option Fields
  | [] => some fs
  | (f, n) :: rest => (fs.set f n).bind (·.setAll rest)

/-- Whether a date has every number that is known of dates. -/
def agree (fs : Fields) (d : Date) : Bool :=
  Field.ofDate.all fun f => fs.get f == none || fs.get f == d.field f

/-! ## Finding the date and time -/

/-- Why fields do not make a date or time. -/
inductive Unresolved where
  /-- Something is missing. -/
  | incomplete
  /-- The numbers do not go together. -/
  | contradictory
deriving DecidableEq

/-- The year, from the full year, the century and the year of the century. A full year that comes
with one of the others has to agree with it and cannot be negative. A year of the century alone
lies between 1970 and 2069. -/
def fullYear (year century ofCentury : Option Int) : Except Unresolved (Option Int) :=
  match year, century, ofCentury with
  | year, none, none => .ok year
  | some y, c, r =>
    if 0 ≤ y ∧ c.getD (y / 100) = y / 100 ∧ r.getD (y % 100) = y % 100 then .ok (some y)
    else .error .contradictory
  | none, some c, some r => .ok (some (100 * c + r))
  | none, none, some r => .ok (some (if r < 70 then 2000 + r else 1900 + r))
  | none, some _, none => .error .incomplete

/-- The date by the first way of telling it of which all parts are known, or none if there is no
such way. -/
def candidate (fs : Fields) (year isoYear : Option Int) : Except Unresolved (Option Date) :=
  let known (f : Field) : Option Nat := (fs.get f).map Int.toNat
  match year, known .month, known .day with
  | some y, some m, some d => .ok (Date.ofYearMonthDay? y m d)
  | _, _, _ =>
  match year, known .dayOfYear with
  | some y, some n => .ok (Date.ofYearDay? y n)
  | _, _ =>
  match year, known .weekFromSunday, known .weekday with
  | some y, some w, some d => .ok (Date.ofWeekFrom? 6 y w d)
  | _, _, _ =>
  match year, known .weekFromMonday, known .weekday with
  | some y, some w, some d => .ok (Date.ofWeekFrom? 0 y w d)
  | _, _, _ =>
  match isoYear, known .isoWeek, known .weekday with
  | some y, some w, some d => .ok (Date.ofIsoWeek? ⟨y, w⟩ d)
  | _, _, _ => .error .incomplete

/-- The date that the fields tell. All that is known of it has to agree. -/
def date (fs : Fields) : Except Unresolved Date := do
  let year ← fullYear (fs.get .year) (fs.get .century) (fs.get .yearOfCentury)
  let isoYear ← fullYear (fs.get .isoYear) none (fs.get .isoYearOfCentury)
  match ← fs.candidate year isoYear with
  | some d => if fs.agree d then .ok d else .error .contradictory
  | none => .error .contradictory

/-- The time of day that the fields tell. The hour and the minute have to be known, and the second
if there is a fraction of it. -/
def time (fs : Fields) : Except Unresolved TimeOfDay :=
  match fs.get .halfDay, fs.get .hourOfHalf, fs.get .minute, fs.get .second, fs.get .nanosecond with
  | some _, some _, some _, none, some _ => .error .incomplete
  | some half, some hour, some minute, second, nanosecond =>
    .ok ⟨(12 * half + hour).toNat, minute.toNat, (second.getD 0).toNat, (nanosecond.getD 0).toNat⟩
  | _, _, _, _, _ => .error .incomplete

/-- The second that a timestamp stands for, given the known number of seconds. A known second 60 may
belong to the last second of a minute or to the first one of the next. -/
def timestampSecond? (timestamp : Int) (second : Option Int) : Option Int :=
  if second = some 60 then
    if timestamp % 60 = 59 then some timestamp
    else if timestamp % 60 = 0 then some (timestamp - 1)
    else none
  else some timestamp

/-- The date and time that a timestamp tells, together with what else is known. -/
def ofTimestamp? (fs : Fields) (timestamp : Int) : Option DateTime := do
  let second ← timestampSecond? timestamp (fs.get .second)
  let _ ← DateTime.ofTimestamp? timestamp 0
  let t ← DateTime.ofTimestamp? second 0
  let known ← fs.setAll [
    (.year, t.date.year), (.dayOfYear, t.date.dayOfYear),
    (.halfDay, t.time.hour / 12), (.hourOfHalf, t.time.hour % 12), (.minute, t.time.minute)]
  let known ← if fs.get .second = some 60 then some known else known.set .second t.time.second
  match known.date, known.time with
  | .ok date, .ok time => some ⟨date, time⟩
  | _, _ => none

/-- The date and time that the fields tell. A timestamp has to agree with the other fields; it
stands in for a date or time of which parts are missing. -/
def dateTime? (fs : Fields) : Option DateTime :=
  match fs.date, fs.time, fs.get .timestamp with
  | .ok date, .ok time, none => some ⟨date, time⟩
  | .ok date, .ok time, some timestamp =>
    let t : DateTime := ⟨date, time⟩
    if timestamp = t.timestamp ∨ (time.second = 60 ∧ timestamp = t.timestamp + 1) then some t
    else none
  | .error .contradictory, _, _ => none
  | _, .error .contradictory, _ => none
  | _, _, some timestamp => fs.ofTimestamp? timestamp
  | _, _, none => none

end Fields

end DeviceMessages.Time
