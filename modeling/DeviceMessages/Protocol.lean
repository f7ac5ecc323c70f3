import DeviceMessages.Definition.Parser
import DeviceMessages.Directory
import DeviceMessages.Message.Scanner
import DeviceMessages.Template.Compilation

/-!
# Protocols

A protocol is what a definition file comes to: its templates compiled and its scanners made. The
definitions are gone through in their order, so the error that is reported is the first one that a
reader of the file would come upon, templates before scanners. An error that is caused by another
one says so in its wording and names it as its cause.
-/

namespace DeviceMessages

/-! ## Errors -/

inductive ProtocolError where
  /-- The file cannot be read, for a reason that the system tells. -/
  | unreadable (path reason : String)
  | definition (error : DefinitionError)
  | template (name : String) (error : TemplateError)
  | validator (message rule : String) (error : ValidatorError)
  | assembly (error : AssemblyError)
  | duplicateTemplate (name : String)
  | duplicateScanner (name : String)
deriving DecidableEq

def ProtocolError.message : ProtocolError → String
  | .unreadable path reason => s!"{path}: {reason}"
  | .definition error => s!"Parse error: {error.message}"
  | .template name error => s!"template '{name}': {error.message}"
  | .validator message rule error => s!"rule '{rule}' in message '{message}': {error.message}"
  | .assembly error => error.message
  | .duplicateTemplate name => s!"Duplicate template name: {name}"
  | .duplicateScanner name => s!"Duplicate scanner name: {name}"

/-- The wordings of what an error of a template is caused by. -/
def TemplateError.causes : TemplateError → List String
  | .call _ error => [error.message]
  | .badFormat _ _ error => [error.message]
  | _ => []

/-- The wordings of what an error is caused by, from the nearest cause to the last. -/
def ProtocolError.causes : ProtocolError → List String
  | .unreadable _ reason => [reason]
  | .template _ error => error.message :: error.causes
  | .validator _ _ error => [error.message]
  | _ => []

/-! ## From a definition to a scanner -/

/-- The rule of a definition. Its validators are made in their order. -/
def Rule.ofDefinition (validators : Validators) (d : RuleDefinition) :
    Except ValidatorError Rule := do
  let validators ← d.validators.mapM fun v => validators.create v.name v.parameters
  .ok ⟨d.name, d.location, validators⟩

/-- The kind of a definition. The validators of its rules are made before the names of the rules are
looked at. -/
def MessageKind.ofDefinition (validators : Validators) (d : MessageDefinition) :
    Except ProtocolError MessageKind := do
  let rules ← d.rules.mapM fun r =>
    (Rule.ofDefinition validators r).mapError (.validator d.name r.name)
  (make d.name rules).mapError .assembly

/-- The scanner of a definition. Its kinds are made before their names are looked at. -/
def Scanner.ofDefinition (validators : Validators) (d : ScannerDefinition) :
    Except ProtocolError Scanner := do
  let kinds ← d.messages.mapM (MessageKind.ofDefinition validators)
  (make d.name kinds).mapError .assembly

/-! ## From a definition file to a protocol -/

/-- The templates and scanners of a definition file. -/
structure Protocol where
  templateDirectory : Directory Template
  scannerDirectory : Directory Scanner

namespace Protocol

def build (functions : Functions) (validators : Validators) (d : Definition) :
    Except ProtocolError Protocol := do
  let templates ← Directory.ofDefinitions (·.name) .duplicateTemplate
    (fun t => (Template.compile functions t.name t.source).mapError (.template t.name)) d.templates
  let scanners ← Directory.ofDefinitions (·.name) .duplicateScanner
    (Scanner.ofDefinition validators) d.scanners
  .ok ⟨templates, scanners⟩

def ofSource (functions : Functions) (validators : Validators) (source : String) :
    Except ProtocolError Protocol := do
  let definition ← (Definition.parse source).mapError .definition
  build functions validators definition

/-- The templates in the order of the file. -/
def templates (p : Protocol) : List Template :=
  p.templateDirectory.entries

/-- The scanners in the order of the file. -/
def scanners (p : Protocol) : List Scanner :=
  p.scannerDirectory.entries

def template? (p : Protocol) (name : String) : Option Template :=
  p.templateDirectory.find? name

def scanner? (p : Protocol) (name : String) : Option Scanner :=
  p.scannerDirectory.find? name

end Protocol

end DeviceMessages
