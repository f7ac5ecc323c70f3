import DeviceMessages.Message.Delivery
import DeviceMessages.Message.Rule

/-!
# Kinds of messages

A message is of a kind if all rules of the kind apply to it. The values that the rules extract are
then its fields, in the order of the rules. If only one rule does not apply the message has no
fields at all.

The name of a rule is the name of the field that it extracts, and the name of a kind of messages is
what a scanner answers. So the rules of a kind have different names, the kinds of a scanner have
different names, and there is at least one kind for a scanner to answer with.
-/

namespace DeviceMessages

/-! ## Names -/

/-- What can be wrong with the rules of a kind or with the kinds of a scanner. -/
inductive AssemblyError where
  | duplicateRule (message rule : String)
  | duplicateMessage (scanner message : String)
  | emptyScanner (scanner : String)
deriving DecidableEq

def AssemblyError.message : AssemblyError → String
  | .duplicateRule message rule => s!"Duplicate rule '{rule}' in message '{message}'"
  | .duplicateMessage scanner message => s!"Duplicate message '{message}' in scanner '{scanner}'"
  | .emptyScanner scanner => s!"scanner '{scanner}' has no messages"

/-- The first name that has occurred before, given the names that have occurred. -/
def firstRepeated? (seen : List String) : List String → Option String
  | [] => none
  | name :: names =>
    if seen.contains name then some name else firstRepeated? (name :: seen) names

theorem firstRepeated?_eq_none_iff (seen names : List String) :
    firstRepeated? seen names = none ↔ names.Nodup ∧ ∀ name ∈ names, name ∉ seen := by
  induction names generalizing seen with
  | nil => simp [firstRepeated?]
  | cons name names ih =>
    unfold firstRepeated?
    by_cases h : name ∈ seen
    · simp [h]
    · simp only [List.contains_iff_mem, h, if_false, ih, List.nodup_cons, List.mem_cons]
      grind

/-! ## Rules that belong together -/

structure MessageKind where
  name : String
  rules : List Rule

/-- A message that is of a kind: the name of the kind and the fields. -/
structure Match where
  name : String
  fields : List FieldValue
deriving DecidableEq

namespace Match

def get? (m : Match) (field : String) : Option Bytes :=
  m.fields.lookup field

/-- Delivers the fields to a sink, and answers whether it took all of them. -/
def commit {σ : Type} (m : Match) (sink : Sink σ) (s : σ) : σ × Bool :=
  sink.deliver m.name m.fields s

end Match

namespace MessageKind

/-- A kind from its rules, which have different names. -/
def make (name : String) (rules : List Rule) : Except AssemblyError MessageKind :=
  match firstRepeated? [] (rules.map (·.name)) with
  | some rule => .error (.duplicateRule name rule)
  | none => .ok ⟨name, rules⟩

/-- The values that rules extract, if all of them apply. -/
def extractFields (input : Bytes) : List Rule → Option (List FieldValue)
  | [] => some []
  | r :: rules => do
    let value ← r.apply input
    let others ← extractFields input rules
    some ((r.name, value) :: others)

/-- The message as one of the kind, if it is one. -/
def match? (kind : MessageKind) (input : Bytes) : Option Match :=
  (extractFields input kind.rules).map (⟨kind.name, ·⟩)

/-- Delivers a message to a sink if it is of the kind, and answers whether it is and the sink took
all of its fields. -/
def parse {σ : Type} (kind : MessageKind) (sink : Sink σ) (input : Bytes) (s : σ) : σ × Bool :=
  match kind.match? input with
  | some m => m.commit sink s
  | none => (sink.deliverNothing s, false)

end MessageKind

end DeviceMessages
