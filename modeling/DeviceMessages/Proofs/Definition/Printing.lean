import DeviceMessages.Proofs.Definition.Language
import DeviceMessages.Proofs.Definition.Strings

/-!
# Printing definitions

A definition is printed in three steps: its numbers and strings are written out, which makes the
sections of a file (`writtenSections`), the sections are taken apart into tokens (`fileTokens`), and
the tokens are laid out (`print`). Templates come before scanners.

Numbers are decimal, and each byte of a delimiter is a hexadecimal escape. In parameters only
quotes and backslashes are escaped, and in the text of a template only quotes: it has escapes of its
own, so its backslashes are written as they are. Whatever else is free in a file is the `Style`.

Each way to write a string has two laws here: what is written can stand between quotes, and it
stands for what was to be written.
-/

namespace DeviceMessages.Definition

/-! ## Numbers and strings -/

def hexDigitOf (upperCase : Bool) (n : Nat) : Char :=
  if upperCase then n.digitChar.toUpper else n.digitChar

def writtenByte (upperCase : Bool) (byte : UInt8) : List Char :=
  ['\\', 'x', hexDigitOf upperCase (byte.toNat / 16), hexDigitOf upperCase (byte.toNat % 16)]

/-- A delimiter as it is written. -/
def writtenBytes (upperCase : Bool) (bytes : Bytes) : List Char :=
  bytes.flatMap (writtenByte upperCase)

/-- A parameter as it is written. -/
def writtenText (text : String) : List Char :=
  text.toList.flatMap fun c => if c = '"' ∨ c = '\\' then ['\\', c] else [c]

/-- The text of a template as it is written. -/
def writtenSource (source : List Char) : List Char :=
  source.flatMap fun c => if c = '"' then ['\\', '"'] else [c]

private theorem hexDigitOf_facts (upperCase : Bool) (n : Fin 16) :
    hexDigit? (hexDigitOf upperCase n) = some n.val ∧ hexDigitOf upperCase n ≠ '"' ∧
      hexDigitOf upperCase n ≠ '\\' := by
  revert upperCase n
  decide

/-! ### Delimiters -/

section Delimiters

variable (upperCase : Bool)

private theorem hexByte?_hexDigitOf (byte : UInt8) :
    hexByte? (hexDigitOf upperCase (byte.toNat / 16)) (hexDigitOf upperCase (byte.toNat % 16)) =
      some byte := by
  have hlt : byte.toNat < 256 := byte.toNat_lt
  have hhigh := (hexDigitOf_facts upperCase ⟨byte.toNat / 16, by omega⟩).1
  have hlow := (hexDigitOf_facts upperCase ⟨byte.toNat % 16, by omega⟩).1
  unfold hexByte?
  rw [hhigh, hlow]
  show some (UInt8.ofNat (16 * (byte.toNat / 16) + byte.toNat % 16)) = some byte
  rw [Nat.div_add_mod, UInt8.ofNat_toNat]

theorem isBody_writtenBytes (bytes : Bytes) : IsBody (writtenBytes upperCase bytes) := by
  induction bytes with
  | nil => exact .nil
  | cons byte bytes ih =>
      have hlt : byte.toNat < 256 := byte.toNat_lt
      have hhigh := (hexDigitOf_facts upperCase ⟨byte.toNat / 16, by omega⟩).2
      have hlow := (hexDigitOf_facts upperCase ⟨byte.toNat % 16, by omega⟩).2
      exact .pair (.plain hhigh (.plain hlow ih))

theorem spells_writtenBytes (bytes : Bytes) : Spells (writtenBytes upperCase bytes) bytes := by
  induction bytes with
  | nil => exact .nil
  | cons byte bytes ih => exact .hex (hexByte?_hexDigitOf upperCase byte) ih

end Delimiters

/-! ### Parameters -/

theorem isBody_writtenText (text : String) : IsBody (writtenText text) := by
  unfold writtenText
  induction text.toList with
  | nil => exact .nil
  | cons c cs ih =>
      rw [List.flatMap_cons]
      split
      · exact .pair ih
      · next hc => exact .plain (not_or.1 hc) ih

theorem spells_writtenText (text : String) : Spells (writtenText text) (Text.utf8 text) := by
  unfold writtenText Text.utf8
  induction text.toList with
  | nil => exact .nil
  | cons c cs ih =>
      rw [List.flatMap_cons, List.flatMap_cons]
      split
      · next hc =>
          -- a quote and a backslash each stand for their one byte after a backslash
          rcases hc with rfl | rfl
          · exact .letter (show ('"', 0x22) ∈ letterEscapes by decide) ih
          · exact .letter (show ('\\', 0x5C) ∈ letterEscapes by decide) ih
      · next hc => exact .plain (not_or.1 hc).2 ih

/-! ### Templates -/

/-- A template text that can be written: each backslash has a character after it, and not a
quote. -/
inductive IsSource : List Char → Prop
  | nil : IsSource []
  | plain {c : Char} {cs : List Char} (hc : c ≠ '\\') (hcs : IsSource cs) : IsSource (c :: cs)
  | pair {c : Char} {cs : List Char} (hc : c ≠ '"') (hcs : IsSource cs) :
      IsSource ('\\' :: c :: cs)

theorem isBody_writtenSource {source : List Char} (h : IsSource source) :
    IsBody (writtenSource source) := by
  induction h with
  | nil => exact .nil
  | @plain c cs hc _ ih =>
      rw [writtenSource, List.flatMap_cons]
      split
      · exact .pair ih
      · next hquote => exact .plain ⟨hquote, hc⟩ ih
  | @pair c cs hc _ ih =>
      rw [writtenSource, List.flatMap_cons, List.flatMap_cons, if_neg (by decide), if_neg hc]
      exact .pair ih

theorem templateText_cons {c : Char} {cs : List Char} (h : c = '\\' → cs.head? ≠ some '"') :
    templateText (c :: cs) = c :: templateText cs := by
  rw [templateText]
  rintro ds hc rfl
  exact h hc rfl

private theorem head?_writtenSource (source : List Char) :
    (writtenSource source).head? ≠ some '"' := by
  cases source with
  | nil => exact fun h => by cases h
  | cons c cs =>
      rw [writtenSource, List.flatMap_cons]
      split
      · exact fun h => by cases h
      · next hquote => exact fun h => hquote (Option.some.inj h)

/-- The written text is read back, as a backslash that is not there for a quote has none after
it. -/
theorem templateText_writtenSource {source : List Char} (h : IsSource source) :
    templateText (writtenSource source) = source := by
  induction h with
  | nil => rfl
  | @plain c cs hc _ ih =>
      rw [writtenSource, List.flatMap_cons]
      split
      · next hquote =>
          rw [hquote]
          exact congrArg ('"' :: ·) ih
      · exact (templateText_cons fun h => absurd h hc).trans (congrArg (c :: ·) ih)
  | @pair c cs hc _ ih =>
      rw [writtenSource, List.flatMap_cons, List.flatMap_cons, if_neg (by decide), if_neg hc]
      have hrest : templateText (c :: writtenSource cs) = c :: templateText (writtenSource cs) :=
        templateText_cons fun _ => head?_writtenSource cs
      have hhead : (c :: writtenSource cs).head? ≠ some '"' := fun h => hc (Option.some.inj h)
      refine (templateText_cons fun _ => hhead).trans ?_
      exact congrArg ('\\' :: ·) (hrest.trans (congrArg (c :: ·) ih))

example : writtenSource ['a', '"', '\\', 'n'] = ['a', '\\', '"', '\\', 'n'] := by decide

theorem IsBody.head?_ne {body : List Char} (h : IsBody body) :
    body.head? ≠ some '"' := by
  cases h with
  | nil => exact fun h => by cases h
  | plain hc _ => exact fun h => hc.1 (Option.some.inj h)
  | pair _ => exact fun h => by cases h

/-- What is read of a string can be written. -/
theorem isSource_templateText {body : List Char} (h : IsBody body) :
    IsSource (templateText body) := by
  induction h with
  | nil => exact .nil
  | plain hc _ ih =>
      rw [templateText_cons fun h => absurd h hc.2]
      exact .plain hc.2 ih
  | @pair c cs hcs ih =>
      by_cases hc : c = '"'
      · rw [hc]
        exact .plain (by decide) ih
      · have hhead : (c :: cs).head? ≠ some '"' := fun h => hc (Option.some.inj h)
        rw [templateText_cons fun _ => hhead, templateText_cons fun _ => hcs.head?_ne]
        exact .pair hc ih

/-! ## Sections -/

/-- What is free in the text of a definition: the case of hexadecimal digits, whether a validator
without parameters has parentheses, and the trivia before, between and after the tokens. -/
structure Style where
  upperCase : Bool
  parentheses : Bool
  gap : Nat → List Char
  isFiller : ∀ i, Filler (gap i)

variable (style : Style)

def writtenLocation : Location → WrittenLocation
  | .offset position length => .offset (Decimal.digits position) (Decimal.digits length)
  | .between opening closing =>
    .between (writtenBytes style.upperCase opening) (writtenBytes style.upperCase closing)

def writtenValidator (v : ValidatorDefinition) : WrittenValidator :=
  ⟨v.name, v.parameters.map writtenText⟩

def writtenRule (r : RuleDefinition) : WrittenRule :=
  ⟨r.name, writtenLocation style r.location, r.validators.map writtenValidator⟩

def writtenMessage (m : MessageDefinition) : WrittenMessage :=
  ⟨m.name, m.rules.map (writtenRule style)⟩

def writtenTemplate (t : TemplateDefinition) : Section :=
  .template t.name (writtenSource t.source.toList)

def writtenScanner (s : ScannerDefinition) : Section :=
  .scanner s.name (s.messages.map (writtenMessage style))

def writtenSections (d : Definition) : List Section :=
  d.templates.map writtenTemplate ++ d.scanners.map (writtenScanner style)

/-! ## Tokens -/

def locationTokens : WrittenLocation → List Token
  | .offset position length =>
    [.word .offset, .word .openParenthesis, .number position, .word .comma, .number length,
      .word .closeParenthesis]
  | .between opening closing =>
    [.word .between, .word .openParenthesis, .quoted .delimiter opening, .word .comma,
      .quoted .delimiter closing, .word .closeParenthesis]

/-- The tokens of parameters, which may be none. -/
def parametersTokens (parameters : List (List Char)) : List Token :=
  if parameters = [] ∧ style.parentheses = false then []
  else
    enclosed .openParenthesis .closeParenthesis
      (commaSeparated (parameters.map fun p => [.quoted .parameter p]))

def validatorTokens (v : WrittenValidator) : List Token :=
  .name v.name :: parametersTokens style v.parameters

/-- The tokens of a list of validators, which are none if the list is empty. -/
def validatorsTokens (vs : List WrittenValidator) : List Token :=
  if vs = [] then []
  else
    enclosed .openBracket .closeBracket (commaSeparated (vs.map (validatorTokens style)))

def ruleTokens (r : WrittenRule) : List Token :=
  .name r.name :: .word .colon :: locationTokens r.location ++
    validatorsTokens style r.validators ++ [.word .semicolon]

def messageTokens (m : WrittenMessage) : List Token :=
  .word .message :: .name m.name ::
    enclosed .openBrace .closeBrace (m.rules.map (ruleTokens style)).flatten

def sectionTokens : Section → List Token
  | .template name body =>
    [.word .template, .name name, .word .equals, .quoted .template body, .word .semicolon]
  | .scanner name messages =>
    .word .scanner :: .name name ::
      enclosed .openBrace .closeBrace (messages.map (messageTokens style)).flatten

def fileTokens (sections : List Section) : List Token :=
  (sections.map (sectionTokens style)).flatten

/-- The text of a definition. -/
def print (d : Definition) : String :=
  String.ofList (layOut style.gap (fileTokens style (writtenSections style d)))

/-! ### Their derivations -/

private theorem forall₂_map {α : Type} {f : Form α} {tokens : α → List Token}
    (h : ∀ a, f.Derives a (tokens a)) (as : List α) :
    List.Forall₂ f.Derives as (as.map tokens) := by
  rw [List.forall₂_map_right_iff, List.forall₂_same]
  exact fun a _ => h a

private theorem derives_locationTokens (l : WrittenLocation) :
    Language.location.Derives l (locationTokens l) := by
  rw [Language.derives_location]
  cases l with
  | offset position length => exact .inl ⟨position, length, rfl, rfl⟩
  | between opening closing => exact .inr ⟨opening, closing, rfl, rfl⟩

private theorem derives_validatorTokens (v : WrittenValidator) :
    Language.validator.Derives v (validatorTokens style v) := by
  refine Language.derives_validator.2 ⟨_, rfl, ?_⟩
  unfold parametersTokens
  split
  · next h => exact .inl ⟨h.1, rfl⟩
  · exact .inr (Language.derives_parameters.2 rfl)

private theorem derives_ruleTokens (r : WrittenRule) :
    Language.rule.Derives r (ruleTokens style r) := by
  refine Language.derives_rule.2 ⟨_, _, rfl, derives_locationTokens r.location, ?_⟩
  unfold validatorsTokens
  split
  · next h => exact .inl ⟨h, rfl⟩
  · next h =>
      have hvs := forall₂_map (derives_validatorTokens style) r.validators
      exact .inr (Language.derives_validators.2 ⟨h, _, hvs, rfl⟩)

private theorem derives_messageTokens (m : WrittenMessage) :
    Language.message.Derives m (messageTokens style m) :=
  Language.derives_message.2 ⟨_, forall₂_map (derives_ruleTokens style) m.rules, rfl⟩

private theorem derives_sectionTokens (s : Section) :
    (Form.choice Language.template Language.scanner).Derives s (sectionTokens style s) := by
  cases s with
  | template name body => exact .inl (Language.derives_template.2 ⟨name, body, rfl, rfl⟩)
  | scanner name messages =>
      have hmessages := forall₂_map (derives_messageTokens style) messages
      exact .inr (Language.derives_scanner.2 ⟨name, messages, _, rfl, hmessages, rfl⟩)

/-- The tokens of sections are derived for them. -/
theorem derives_fileTokens (sections : List Section) :
    Language.file.Derives sections (fileTokens style sections) :=
  ⟨_, forall₂_map (derives_sectionTokens style) sections, rfl⟩

end DeviceMessages.Definition
