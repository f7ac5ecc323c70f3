import DeviceMessages.Definition.Grammar
import DeviceMessages.Definition.Leaf
import DeviceMessages.Message.Rule

/-!
# Reading definition files

A definition file names templates and scanners. `Definition` is what it says, before any template is
compiled and any validator is made.

The file is read in two steps. First its form is recognized; if that fails, the error is the
furthest place where a part was looked for and not found. Then its numbers and strings are decoded
in the order of the file, and the first bad one is the error.
-/

namespace DeviceMessages

/-! ## What a file says -/

structure TemplateDefinition where
  name : String
  source : String
deriving DecidableEq

structure ValidatorDefinition where
  name : String
  parameters : List String
deriving DecidableEq

structure RuleDefinition where
  name : String
  location : Location
  validators : List ValidatorDefinition
deriving DecidableEq

structure MessageDefinition where
  name : String
  rules : List RuleDefinition
deriving DecidableEq

structure ScannerDefinition where
  name : String
  messages : List MessageDefinition
deriving DecidableEq

/-- What a definition file says: its templates and its scanners, both in the order of the file. -/
structure Definition where
  templates : List TemplateDefinition
  scanners : List ScannerDefinition
deriving DecidableEq

/-! ## Its form -/

namespace Definition

/-- A place in a text: the line and the character in it, both from 1. -/
structure Position where
  line : Nat
  column : Nat
deriving DecidableEq

/-- The place that a text ends at. Only a line feed ends a line. -/
def Position.after (text : List Char) : Position where
  line := text.count '\n' + 1
  column := (text.reverse.takeWhile (· != '\n')).length + 1

/-- The fewest characters left at any of the places, given how many there are in all. -/
def furthest (total : Nat) (misses : List Nat) : Nat :=
  misses.foldl (fun fewest left => if left < fewest then left else fewest) total

/-- The sections of a file, or the number of characters before the place of the error. -/
def recognize (source : List Char) : Except Nat (List Section) :=
  match Grammar.file source with
  | ⟨some (sections, _), _⟩ => .ok sections
  | ⟨none, misses⟩ => .error (source.length - furthest source.length misses)

/-! ## Decoding -/

def decodeLocation : WrittenLocation → Except LeafError Location
  | .offset position length => do
    let position ← numberOf position
    let length ← numberOf length
    .ok (.offset position length)
  | .between opening closing => do
    let opening ← bytesOf opening
    let closing ← bytesOf closing
    .ok (.between opening closing)

def decodeValidator (v : WrittenValidator) : Except LeafError ValidatorDefinition := do
  let parameters ← v.parameters.mapM textOf
  .ok ⟨v.name, parameters⟩

def decodeRule (r : WrittenRule) : Except LeafError RuleDefinition := do
  let location ← decodeLocation r.location
  let validators ← r.validators.mapM decodeValidator
  .ok ⟨r.name, location, validators⟩

def decodeMessage (m : WrittenMessage) : Except LeafError MessageDefinition := do
  let rules ← m.rules.mapM decodeRule
  .ok ⟨m.name, rules⟩

/-- The templates among sections. The text of a template is always good. -/
def templatesOf (sections : List Section) : List TemplateDefinition :=
  sections.filterMap fun
    | .template name body => some ⟨name, String.ofList (templateText body)⟩
    | .scanner _ _ => none

/-- The meaning of the scanners among sections. -/
def scannersOf : List Section → Except LeafError (List ScannerDefinition)
  | [] => .ok []
  | .template _ _ :: sections => scannersOf sections
  | .scanner name messages :: sections => do
    let messages ← messages.mapM decodeMessage
    let others ← scannersOf sections
    .ok (⟨name, messages⟩ :: others)

def decode (sections : List Section) : Except LeafError Definition := do
  let scanners ← scannersOf sections
  .ok ⟨templatesOf sections, scanners⟩

end Definition

/-- What can be wrong with the text of a definition file. -/
inductive DefinitionError where
  | form (position : Definition.Position)
  | leaf (error : Definition.LeafError)
deriving DecidableEq

def DefinitionError.message : DefinitionError → String
  | .form position => s!"unexpected text at line {position.line}, column {position.column}"
  | .leaf error => error.message

/-- The definition that a file spells, or what is wrong with it. -/
def Definition.parse (source : String) : Except DefinitionError Definition :=
  match Definition.recognize source.toList with
  | .error before => .error (.form (Position.after (source.toList.take before)))
  | .ok sections =>
    match Definition.decode sections with
    | .error e => .error (.leaf e)
    | .ok definition => .ok definition

end DeviceMessages
