import DeviceMessages.Validator

/-!
# Rules

A rule extracts the value of one field from a message. It is found in the bytes in one of two ways:
by its position and length, or by what stands before and after it. In the second way the value
begins after the first place where the opening delimiter stands and ends before the first place
after that where the closing one does. An empty delimiter stands everywhere.

If a rule has validators, the value has to be text that all of them accept; without validators any
bytes will do.
-/

namespace DeviceMessages

/-! ## Where a value stands -/

inductive Location where
  | offset (position length : Nat)
  | between (opening closing : Bytes)
deriving DecidableEq

namespace Location

/-- The bytes before and after the first place where `part` stands in the bytes. -/
def cutAt (part : Bytes) (bytes : Bytes) : Option (Bytes × Bytes) :=
  if part.isPrefixOf bytes then some ([], bytes.drop part.length)
  else
    match bytes with
    | [] => none
    | b :: rest => (cutAt part rest).map fun (before, after) => (b :: before, after)

/-- The value of a message, if the message has it. -/
def extract (location : Location) (input : Bytes) : Option Bytes :=
  match location with
  | .offset position length =>
    if position + length ≤ input.length then some ((input.drop position).take length) else none
  | .between opening closing => do
    let (_, rest) ← cutAt opening input
    let (value, _) ← cutAt closing rest
    some value

theorem append_of_cutAt {part bytes before after : Bytes}
    (h : cutAt part bytes = some (before, after)) : bytes = before ++ part ++ after := by
  induction bytes generalizing before with
  | nil =>
    unfold cutAt at h
    split at h
    · next hprefix =>
      cases h
      simp_all
    · cases h
  | cons b bytes ih =>
    unfold cutAt at h
    split at h
    · next hprefix =>
      cases h
      obtain ⟨rest, hrest⟩ := List.isPrefixOf_iff_prefix.1 hprefix
      rw [← hrest]
      simp
    · simp only [Option.map_eq_some_iff, Prod.mk.injEq, Prod.exists] at h
      obtain ⟨before', after', hcut, rfl, rfl⟩ := h
      simp [ih hcut]

end Location

/-! ## Rules -/

/-- Where the value of a field stands, and what is demanded of it. -/
structure Rule where
  name : String
  location : Location
  validators : List Validator

namespace Rule

def accepts (r : Rule) (value : Bytes) : Bool :=
  r.validators.isEmpty ||
    match Text.ofUtf8? value with
    | some text => r.validators.all (·.accepts text)
    | none => false

/-- The value of the field, if the message has one that meets the demands. -/
def apply (r : Rule) (input : Bytes) : Option Bytes :=
  (r.location.extract input).filter r.accepts

end Rule

end DeviceMessages
