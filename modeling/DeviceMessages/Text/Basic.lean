/-!
# Bytes and text

Messages are bytes, fields and formats are text, and UTF-8 joins the two. `utf8` writes a text,
`ofUtf8?` reads one back and refuses everything that is not well formed, and `ofUtf8Lossy` reads
any bytes, putting U+FFFD where they are not text.

Values that come from operators and devices often carry stray white space. What counts as blank
is the Unicode property `White_Space`: it has the ASCII blanks and also, for instance, the no-break
space, but not the zero width space and not the byte order mark.

A text is split at every place where a separator stands. It always has at least one part, which is
empty for the empty text, and joining the parts with separators gives the text back.
-/

namespace DeviceMessages

/-- What is sent to a device or received from it. -/
abbrev Bytes := List UInt8

namespace Text

/-! ## UTF-8 -/

def utf8 (s : String) : Bytes :=
  s.toList.flatMap String.utf8EncodeChar

/-- The number of bytes that a run of characters takes in UTF-8. -/
def utf8Length : List Char → Nat
  | [] => 0
  | c :: cs => c.utf8Size + utf8Length cs

/-- The byte offset in `whole` at which its final part `rest` starts. -/
def offsetOf (whole rest : List Char) : Nat :=
  utf8Length whole - utf8Length rest

/-- The text that the bytes are the UTF-8 form of. -/
def ofUtf8? (bytes : Bytes) : Option String :=
  String.fromUTF8? ⟨bytes.toArray⟩

@[simp] theorem utf8Length_nil : utf8Length [] = 0 := rfl

@[simp] theorem utf8Length_cons (c : Char) (cs : List Char) :
    utf8Length (c :: cs) = c.utf8Size + utf8Length cs := rfl

@[simp] theorem utf8Length_append (cs ds : List Char) :
    utf8Length (cs ++ ds) = utf8Length cs + utf8Length ds := by
  induction cs with
  | nil => simp
  | cons c cs ih => simp [ih, Nat.add_assoc]

@[simp] theorem offsetOf_append (cs ds : List Char) :
    offsetOf (cs ++ ds) ds = utf8Length cs := by
  simp [offsetOf]

theorem offsetOf_append_right (whole rest more : List Char) :
    offsetOf (whole ++ more) (rest ++ more) = offsetOf whole rest := by
  rw [offsetOf, offsetOf, utf8Length_append, utf8Length_append, Nat.add_sub_add_right]

theorem offsetOf_append_left {whole rest : List Char} (h : rest <:+ whole) (front : List Char) :
    offsetOf (front ++ whole) rest = utf8Length front + offsetOf whole rest := by
  obtain ⟨before, rfl⟩ := h
  rw [← List.append_assoc, offsetOf_append, offsetOf_append, utf8Length_append]

theorem length_utf8 (s : String) : (utf8 s).length = utf8Length s.toList := by
  unfold utf8
  induction s.toList with
  | nil => rfl
  | cons c cs ih => simp [ih, String.length_utf8EncodeChar]

theorem utf8_append (s t : String) : utf8 (s ++ t) = utf8 s ++ utf8 t := by
  simp [utf8, String.toList_append]

/-! ## Reading bytes that may not be text -/

/-- The bytes that may follow a first byte: how many there are, and the bounds of the first of them.
The bounds leave out overlong forms, surrogates and codes above U+10FFFF. -/
def continuation? (lead : UInt8) : Option (Nat × UInt8 × UInt8) :=
  if lead < 0x80 then some (0, 0x80, 0xBF)
  else if lead < 0xC2 then none
  else if lead < 0xE0 then some (1, 0x80, 0xBF)
  else if lead = 0xE0 then some (2, 0xA0, 0xBF)
  else if lead = 0xED then some (2, 0x80, 0x9F)
  else if lead < 0xF0 then some (2, 0x80, 0xBF)
  else if lead = 0xF0 then some (3, 0x90, 0xBF)
  else if lead < 0xF4 then some (3, 0x80, 0xBF)
  else if lead = 0xF4 then some (3, 0x80, 0x8F)
  else none

/-- How many of at most `count` bytes continue a sequence, the first of them within the bounds. -/
def continuationLength : Nat → UInt8 → UInt8 → Bytes → Nat
  | count + 1, low, high, b :: rest =>
    if low ≤ b && b ≤ high then continuationLength count 0x80 0xBF rest + 1 else 0
  | _, _, _, _ => 0

/-- The code that a first byte and its continuation bytes spell. -/
def codeOf (lead : UInt8) (more : Bytes) : Nat :=
  let leadBits := match more.length with
    | 0 => lead.toNat
    | 1 => lead.toNat % 0x20
    | 2 => lead.toNat % 0x10
    | _ => lead.toNat % 0x08
  more.foldl (fun code b => code * 0x40 + b.toNat % 0x40) leadBits

/-- The first character of the bytes and the bytes after it. A sequence that breaks off or cannot
begin one character is read as U+FFFD, once for its longest well-formed beginning or for the one
byte that begins nothing. -/
def firstCharLossy (lead : UInt8) (rest : Bytes) : Char × Bytes :=
  match continuation? lead with
  | none => ('\uFFFD', rest)
  | some (count, low, high) =>
    let found := continuationLength count low high rest
    let read := if found = count then Char.ofNat (codeOf lead (rest.take count)) else '\uFFFD'
    (read, rest.drop found)

/-- The bytes as text, with U+FFFD in place of each maximal part that is none. -/
def charsLossy (bytes : Bytes) : List Char :=
  match bytes with
  | [] => []
  | lead :: rest =>
    let next := firstCharLossy lead rest
    next.1 :: charsLossy next.2
termination_by bytes.length
decreasing_by
  simp only [List.length_cons, firstCharLossy]
  split
  · simp
  · simp only [List.length_drop]
    omega

@[inherit_doc charsLossy]
def ofUtf8Lossy (bytes : Bytes) : String :=
  String.ofList (charsLossy bytes)

/-! ## Blanks -/

/-- The characters with the Unicode property `White_Space`. -/
def isBlank (c : Char) : Bool :=
  let code := c.toNat
  (0x09 ≤ code && code ≤ 0x0D) || code == 0x20 || code == 0x85 || code == 0xA0 || code == 0x1680 ||
    (0x2000 ≤ code && code ≤ 0x200A) || code == 0x2028 || code == 0x2029 || code == 0x202F ||
    code == 0x205F || code == 0x3000

/-- A text without the blanks at its two ends. -/
def trim (cs : List Char) : List Char :=
  ((cs.dropWhile isBlank).reverse.dropWhile isBlank).reverse

@[simp] theorem trim_nil : trim [] = [] := rfl

example : isBlank '\u200B' = false ∧ isBlank '\uFEFF' = false ∧ isBlank '\u001C' = false := by
  decide

/-! ## Separators -/

/-- The parts of a text between separators. -/
def splitOn (separator : Char) : List Char → List (List Char)
  | [] => [[]]
  | c :: cs =>
    if c = separator then [] :: splitOn separator cs
    else
      match splitOn separator cs with
      | part :: parts => (c :: part) :: parts
      | [] => [[c]]

/-- The parts of a text with separators between them. -/
def joinWith (separator : Char) : List (List Char) → List Char
  | [] => []
  | [part] => part
  | part :: parts => part ++ separator :: joinWith separator parts

theorem splitOn_ne_nil (separator : Char) (cs : List Char) : splitOn separator cs ≠ [] := by
  cases cs with
  | nil => simp [splitOn]
  | cons c cs =>
    unfold splitOn
    split
    · simp
    · split <;> simp

theorem joinWith_splitOn (separator : Char) (cs : List Char) :
    joinWith separator (splitOn separator cs) = cs := by
  induction cs with
  | nil => rfl
  | cons c cs ih =>
    unfold splitOn
    cases hparts : splitOn separator cs with
    | nil => exact absurd hparts (splitOn_ne_nil separator cs)
    | cons part parts =>
      rw [hparts] at ih
      split
      · next h => simp [joinWith, ih, h]
      · cases parts with
        | nil => simpa [joinWith] using ih
        | cons other parts => simpa [joinWith] using ih

end Text

end DeviceMessages
