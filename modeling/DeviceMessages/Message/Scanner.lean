import DeviceMessages.Message.Kind

/-!
# Scanners

A scanner tells which of several kinds a message is of. It has to be of exactly one: a message that
is of two kinds is ambiguous, and then neither is taken.
-/

namespace DeviceMessages

structure Scanner where
  name : String
  kinds : List MessageKind

/-- Why a message is not taken. -/
inductive ScanError where
  | noMatch
  /-- The message is of all these kinds. -/
  | ambiguous (names : List String)
  /-- The sink refused a field of the message, which is of this kind. -/
  | rejected (name : String)
deriving DecidableEq

def ScanError.message : ScanError → String
  | .noMatch => "no message matched the input"
  | .ambiguous names => "ambiguous input: matched by " ++ ", ".intercalate names
  | .rejected name => s!"fields of '{name}' were rejected"

/-- What comes of scanning a message into a sink: the name of its kind, or why it is not taken. -/
abbrev Outcome := Except ScanError String

namespace Outcome

def isMatch : Outcome → Bool
  | .ok _ => true
  | .error _ => false

def matched? : Outcome → Option String
  | .ok name => some name
  | .error _ => none

end Outcome

namespace Scanner

/-- A scanner from its kinds. There is at least one, and they have different names. -/
def make (name : String) (kinds : List MessageKind) : Except AssemblyError Scanner :=
  if kinds.isEmpty then .error (.emptyScanner name)
  else
    match firstRepeated? [] (kinds.map (·.name)) with
    | some kind => .error (.duplicateMessage name kind)
    | none => .ok ⟨name, kinds⟩

def kind? (s : Scanner) (name : String) : Option MessageKind :=
  s.kinds.find? (·.name == name)

/-- The message as one of each kind that it is of. -/
def allMatches (s : Scanner) (input : Bytes) : List Match :=
  s.kinds.filterMap (·.match? input)

/-- The message as one of the only kind that it is of. -/
def scan (s : Scanner) (input : Bytes) : Except ScanError Match :=
  match s.allMatches input with
  | [] => .error .noMatch
  | [m] => .ok m
  | ms => .error (.ambiguous (ms.map (·.name)))

/-- Delivers a message to a sink if it is of exactly one kind. -/
def parse {σ : Type} (s : Scanner) (sink : Sink σ) (input : Bytes) (state : σ) : σ × Outcome :=
  match s.scan input with
  | .error e => (sink.deliverNothing state, .error e)
  | .ok m =>
    let (state, taken) := m.commit sink state
    (state, if taken then .ok m.name else .error (.rejected m.name))

end Scanner

end DeviceMessages
