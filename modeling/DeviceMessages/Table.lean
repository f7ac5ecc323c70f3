/-!
# Tables of named things

Functions, validators and the values of a record are looked up by name. A table has one entry for
each of its names; putting a second one under a name replaces the first.
-/

namespace DeviceMessages

structure Table (α : Type) where
  entries : List (String × α)

namespace Table

variable {α : Type}

def empty : Table α := ⟨[]⟩

def find? (t : Table α) (name : String) : Option α :=
  t.entries.lookup name

def contains (t : Table α) (name : String) : Bool :=
  (t.find? name).isSome

/-- Enters a thing under a name, in place of the one that was there. -/
def insert (t : Table α) (name : String) (a : α) : Table α :=
  ⟨(name, a) :: t.entries.filter (·.1 != name)⟩

def insertAll (t : Table α) (entries : List (String × α)) : Table α :=
  entries.foldl (fun t entry => t.insert entry.1 entry.2) t

def size (t : Table α) : Nat := t.entries.length

/-- The names of all entries in the order of their characters. -/
def names (t : Table α) : List String :=
  (t.entries.map (·.1)).mergeSort fun a b => decide (a ≤ b)

@[simp] theorem find?_empty (name : String) : (empty : Table α).find? name = none := rfl

private theorem lookup_filter_ne {name key : String} (h : key ≠ name)
    (entries : List (String × α)) :
    (entries.filter (·.1 != name)).lookup key = entries.lookup key := by
  induction entries with
  | nil => rfl
  | cons entry rest ih =>
    obtain ⟨other, a⟩ := entry
    by_cases hname : other = name
    · have hother : (key == other) = false := by simpa [hname] using h
      simp [List.lookup_cons, hname ▸ hother, hname, ih]
    · simp [List.lookup_cons, hname, ih]

@[simp] theorem find?_insert (t : Table α) (name : String) (a : α) (key : String) :
    (t.insert name a).find? key = if key = name then some a else t.find? key := by
  unfold find? insert
  by_cases h : key = name
  · simp [h]
  · have hkey : (key == name) = false := by simpa using h
    rw [List.lookup_cons, hkey, if_neg h]
    exact lookup_filter_ne h t.entries

end Table

end DeviceMessages
