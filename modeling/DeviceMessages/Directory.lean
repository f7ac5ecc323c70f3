import DeviceMessages.Table

/-!
# Directories

A directory keeps things in the order in which they came and finds them by name. The things
themselves are in a list, and a table says for each name at which place of the list its thing
stands.

A directory is filled from a list of definitions, each of which has a name and may turn out to be
bad. The place of a name is reserved before its thing is made, so a name that is there already is
noticed first, and the directory is of use only if all things were made.
-/

namespace DeviceMessages

/-- Things in the order in which they came, and the place of each name among them. -/
structure Directory (α : Type) where
  entries : List α
  positions : Table Nat

namespace Directory

variable {α δ ε : Type}

def empty : Directory α := ⟨[], .empty⟩

def find? (d : Directory α) (name : String) : Option α :=
  (d.positions.find? name).bind fun i => d.entries[i]?

/-- Reserves the next place for a name. -/
def reserve (d : Directory α) (name : String) : Directory α :=
  { d with positions := d.positions.insert name d.entries.length }

def put (d : Directory α) (a : α) : Directory α :=
  { d with entries := d.entries ++ [a] }

@[simp] theorem entries_reserve (d : Directory α) (name : String) :
    (d.reserve name).entries = d.entries := rfl

@[simp] theorem entries_put (d : Directory α) (a : α) :
    (d.put a).entries = d.entries ++ [a] := rfl

@[simp] theorem positions_reserve (d : Directory α) (name : String) :
    (d.reserve name).positions = d.positions.insert name d.entries.length := rfl

@[simp] theorem positions_put (d : Directory α) (a : α) :
    (d.put a).positions = d.positions := rfl

/-- Enters what a definition comes to under the name of the definition. A name that is there already
is `repeated`. -/
def enter (name : δ → String) (repeated : String → ε) (make : δ → Except ε α) (d : Directory α)
    (x : δ) : Except ε (Directory α) :=
  if d.positions.contains (name x) then .error (repeated (name x))
  else do
    let reserved := d.reserve (name x)
    let a ← make x
    .ok (reserved.put a)

/-- The directory of a list of definitions. -/
def ofDefinitions (name : δ → String) (repeated : String → ε) (make : δ → Except ε α)
    (xs : List δ) : Except ε (Directory α) :=
  xs.foldlM (enter name repeated make) empty

end Directory

end DeviceMessages
