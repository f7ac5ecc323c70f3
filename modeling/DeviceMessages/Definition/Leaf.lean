import DeviceMessages.Decimal.Numeral
import DeviceMessages.Text.Basic
import DeviceMessages.Text.Quoted

/-!
# Numbers and strings of definition files

What the numbers and strings of a definition file mean. There are three kinds of strings:

* The text of a template has escapes of its own, so it is taken as it stands. Only a quote, which
  has to have a backslash before it here, loses that.
* A delimiter is bytes. The escapes `\n \r \t \0 \" \\ \xHH` stand for one byte each, and every
  other character for its UTF-8 form.
* A parameter of a validator is written like a delimiter, but its bytes have to be text.
-/

namespace DeviceMessages.Definition

inductive LeafError where
  | unknownEscape (c : Char)
  /-- The two characters that should be hexadecimal digits, or fewer at the end of the string. -/
  | invalidHexEscape (digits : String)
  | danglingBackslash
  | numberOutOfRange (digits : String)
  | notText (written : String)
deriving DecidableEq

def LeafError.message : LeafError → String
  | .unknownEscape c => s!"unknown escape: \\{c}"
  | .invalidHexEscape digits => s!"invalid hex escape: \\x{digits}"
  | .danglingBackslash => "dangling backslash"
  | .numberOutOfRange digits => s!"number out of range: {digits}"
  | .notText written => "parameter is not valid UTF-8: " ++ Text.quoted written

/-- The value of a hexadecimal digit in either case. -/
def hexDigit? (c : Char) : Option Nat :=
  if '0' ≤ c ∧ c ≤ '9' then some (c.toNat - '0'.toNat)
  else if 'a' ≤ c ∧ c ≤ 'f' then some (c.toNat - 'a'.toNat + 10)
  else if 'A' ≤ c ∧ c ≤ 'F' then some (c.toNat - 'A'.toNat + 10)
  else none

theorem hexDigit?_bounds {c : Char} {n : Nat} (h : hexDigit? c = some n) :
    48 ≤ c.toNat ∧ c.toNat ≤ 102 := by
  have hcode : c.val.toNat = c.toNat := rfl
  simp only [hexDigit?, Char.le_def, UInt32.le_iff_toNat_le, Char.reduceVal,
    UInt32.reduceToNat, hcode] at h
  split at h
  · omega
  · split at h
    · omega
    · split at h
      · omega
      · cases h

/-- The byte that two hexadecimal digits write. -/
def hexByte? (high low : Char) : Option UInt8 := do
  let h ← hexDigit? high
  let l ← hexDigit? low
  some (UInt8.ofNat (16 * h + l))

/-- The byte that a letter after a backslash stands for. -/
def escape? : Char → Option UInt8
  | 'n' => some 0x0A
  | 'r' => some 0x0D
  | 't' => some 0x09
  | '0' => some 0x00
  | '"' => some 0x22
  | '\\' => some 0x5C
  | _ => none

/-- The bytes that a string stands for. -/
def bytesOf : List Char → Except LeafError Bytes
  | '\\' :: 'x' :: a :: b :: cs =>
    match hexByte? a b with
    | some byte => (bytesOf cs).map (byte :: ·)
    | none => .error (.invalidHexEscape (String.ofList [a, b]))
  | '\\' :: 'x' :: cs => .error (.invalidHexEscape (String.ofList cs))
  | '\\' :: c :: cs =>
    match escape? c with
    | some byte => (bytesOf cs).map (byte :: ·)
    | none => .error (.unknownEscape c)
  | ['\\'] => .error .danglingBackslash
  | c :: cs => (bytesOf cs).map (String.utf8EncodeChar c ++ ·)
  | [] => .ok []

/-- The text that a string stands for. -/
def textOf (written : List Char) : Except LeafError String :=
  match bytesOf written with
  | .error e => .error e
  | .ok bytes =>
    match Text.ofUtf8? bytes with
    | some text => .ok text
    | none => .error (.notText (String.ofList written))

/-- A template text without the backslashes before its quotes. -/
def templateText : List Char → List Char
  | '\\' :: '"' :: cs => '"' :: templateText cs
  | c :: cs => c :: templateText cs
  | [] => []

/-- The number that digits write, which has to fit 64 bits. -/
def numberOf (digits : List Char) : Except LeafError Nat :=
  let n := Decimal.valueOf digits
  if n < Decimal.wordSize then .ok n else .error (.numberOutOfRange (String.ofList digits))

end DeviceMessages.Definition
