import DeviceMessages.Text.Printable

/-!
# Quoting

Messages to the user show texts and bytes that came from elsewhere. They are shown so that nothing
in them can be mistaken for anything else, and on one line: quotes, backslashes and whatever does
not print are written as escapes.

* `quoted` puts a text between double quotes.
* `escapedLine` shows a line without quotes around it.
* `escapedBytes` shows bytes of which only some may be text.
-/

namespace DeviceMessages.Text

/-- The hexadecimal escape of a character. -/
def codeEscape (c : Char) : List Char :=
  ['\\', 'u', '\x7b'] ++ Nat.toDigits 16 c.toNat ++ ['\x7d']

/-- A character as it is shown, given whether it is a quote to be escaped, and whether it would join
something that it should not join if it is a combining mark. -/
def escapedChar (escapeQuote : Char → Bool) (escapeMark : Bool) (c : Char) : List Char :=
  if c = '\x00' then ['\\', '0']
  else if c = '\t' then ['\\', 't']
  else if c = '\r' then ['\\', 'r']
  else if c = '\n' then ['\\', 'n']
  else if c = '\\' ∨ escapeQuote c then ['\\', c]
  else if (escapeMark && isCombiningMark c) || !isPrintable c then codeEscape c
  else [c]

def quoted (s : String) : String :=
  let body := s.toList.flatMap (escapedChar (· == '"') true)
  String.ofList ('"' :: body ++ ['"'])

/-- A line with both kinds of quotes escaped. A combining mark is escaped only at the beginning, as
elsewhere it joins the character before it. -/
def escapedLine (s : String) : String :=
  let isQuote (c : Char) : Bool := c == '"' || c == '\''
  match s.toList with
  | [] => ""
  | c :: cs =>
    String.ofList (escapedChar isQuote true c ++ cs.flatMap (escapedChar isQuote false))

/-- A lower case hexadecimal digit of a byte. -/
def hexDigit (n : UInt8) : Char :=
  (n.toNat % 16).digitChar

/-- A byte as it is shown: printable ASCII as it is, other bytes as escapes. -/
def escapedByte (b : UInt8) : List Char :=
  if b = 0x09 then ['\\', 't']
  else if b = 0x0D then ['\\', 'r']
  else if b = 0x0A then ['\\', 'n']
  else if b = 0x27 ∨ b = 0x22 ∨ b = 0x5C then ['\\', Char.ofNat b.toNat]
  else if 0x20 ≤ b ∧ b < 0x7F then [Char.ofNat b.toNat]
  else ['\\', 'x', hexDigit (b / 16), hexDigit b]

def escapedBytes (bytes : List UInt8) : String :=
  String.ofList (bytes.flatMap escapedByte)

def quotedList (texts : List String) : String :=
  "[" ++ ", ".intercalate (texts.map quoted) ++ "]"

end DeviceMessages.Text
