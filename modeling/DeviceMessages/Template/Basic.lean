import DeviceMessages.Generator

/-!
# Templates

A template says how a message is written from a record. Compiled, it is a list of fragments: fixed
text, values of the record, and calls of functions. Writing a message is writing its fragments one
after the other, each after what is there already. What can fail is the number in a field that
cannot be written, and then there is no message.

A record holds the values that go into one outgoing message. A template that names a key without a
value writes nothing for it. Templates take their values from anything that can be asked for the
value of a key (`RecordLike`); `Record` keeps them in a table.
-/

namespace DeviceMessages

/-! ## Records -/

/-- Where a template takes its values from. The text of a key is its value, or the empty text if it
has none; a kind of records can give other texts. -/
class RecordLike (R : Type) where
  get? : R → String → Option String
  lookup : R → String → String := fun record key => (get? record key).getD ""

/-- The values of one outgoing message. -/
structure Record where
  name : String
  values : Table String

namespace Record

def new (name : String) : Record := ⟨name, Table.empty⟩

def get? (r : Record) (key : String) : Option String := r.values.find? key

/-- The value of a key, or the empty text. -/
def lookup (r : Record) (key : String) : String := (r.get? key).getD ""

def insert (r : Record) (key value : String) : Record :=
  { r with values := r.values.insert key value }

def insertAll (r : Record) (values : List (String × String)) : Record :=
  { r with values := r.values.insertAll values }

def size (r : Record) : Nat := r.values.size

instance : RecordLike Record where
  get? := get?

end Record

/-! ## Fragments -/

inductive Fragment where
  | literal (text : String)
  /-- The value of a key, through a format if there is one. -/
  | field (key : String) (format : Option FieldFormat)
  /-- A call of a function, bound to its arguments. -/
  | call (function : String) (generator : Generator)

namespace Fragment

variable {R : Type} [RecordLike R]

/-- The message after a fragment, given what has been written before it, if the fragment can be
written. -/
def write (moment : Time.Moment) (record : R) (before : Bytes) : Fragment → Option Bytes
  | .literal text => some (before ++ Text.utf8 text)
  | .field key none => some (before ++ Text.utf8 (RecordLike.lookup record key))
  | .field key (some format) =>
    (format.render (RecordLike.lookup record key)).map fun text => before ++ Text.utf8 text
  | .call _ generator => generator.apply moment before

/-- Writes fragments after what has been written before them, if all of them can be written. The
clock is read for each fragment anew; `clock` tells what it shows for the fragment at each position.
-/
def writeAll (clock : Nat → Time.Moment) (record : R) : Nat → Bytes → List Fragment → Option Bytes
  | _, before, [] => some before
  | position, before, f :: fs =>
    (f.write (clock position) record before).bind fun after =>
      writeAll clock record (position + 1) after fs

theorem writeAll_append (clock : Nat → Time.Moment) (record : R) (position : Nat)
    (before : Bytes) (fs gs : List Fragment) :
    writeAll clock record position before (fs ++ gs) =
      (writeAll clock record position before fs).bind fun after =>
        writeAll clock record (position + fs.length) after gs := by
  induction fs generalizing position before with
  | nil => simp [writeAll]
  | cons f fs ih =>
    have hposition : position + 1 + fs.length = position + (f :: fs).length := by
      rw [List.length_cons]
      omega
    simp only [List.cons_append, writeAll, Option.bind_assoc, ih, hposition]

end Fragment

/-! ## Messages -/

/-- A compiled template with its name and the text it was compiled from. -/
structure Template where
  name : String
  source : String
  fragments : List Fragment

namespace Template

variable {R : Type} [RecordLike R]

def format (t : Template) (clock : Nat → Time.Moment) (record : R) : Option Bytes :=
  Fragment.writeAll clock record 0 [] t.fragments

/-- Writes the message for a record into a buffer. What the buffer holds is removed first, so that
the functions see nothing but this message. -/
def formatInto (t : Template) (clock : Nat → Time.Moment) (record : R) (buffer : Bytes) :
    Option Bytes :=
  let cleared := buffer.take 0
  Fragment.writeAll clock record 0 cleared t.fragments

end Template

end DeviceMessages
