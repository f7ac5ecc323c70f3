/-!
# Recognizers

A definition file is read by recognizers. A recognizer looks at the beginning of a text and either
takes a part of it or fails. Where several would do, the first that succeeds is taken and never
reconsidered, and a repetition goes on as long as it can.

To tell the user where a text stops making sense, a recognizer also reports all places where a part
with a name was looked for and not found, whether or not that made the whole fail. A place is told
by how many characters are left there. Places add up along the way, so the one with the fewest
characters left is the furthest that reading got.
-/

namespace DeviceMessages.Definition

/-- What comes of looking at the beginning of a text. -/
structure Attempt (α : Type) where
  /-- What was taken and what is left, or nothing if the recognizer failed. -/
  result : Option (α × List Char)
  /-- The number of characters left where a named part was not found. -/
  misses : List Nat

/-- Reads a part of a text from its beginning. -/
abbrev Recognizer (α : Type) := List Char → Attempt α

namespace Recognizer

variable {α β : Type}

def succeed (a : α) : Recognizer α :=
  fun cs => ⟨some (a, cs), []⟩

/-- Takes what a function takes that reports no places. -/
def ofReader (read : List Char → Option (α × List Char)) : Recognizer α :=
  fun cs => ⟨read cs, []⟩

def andThen (p : Recognizer α) (next : α → Recognizer β) : Recognizer β :=
  fun cs =>
    match p cs with
    | ⟨none, misses⟩ => ⟨none, misses⟩
    | ⟨some (a, rest), misses⟩ =>
      let attempt := next a rest
      ⟨attempt.result, misses ++ attempt.misses⟩

instance : Monad Recognizer where
  pure := succeed
  bind := andThen

/-- The first of two that succeeds. -/
def orElse (p q : Recognizer α) : Recognizer α :=
  fun cs =>
    match p cs with
    | ⟨some taken, misses⟩ => ⟨some taken, misses⟩
    | ⟨none, misses⟩ =>
      let attempt := q cs
      ⟨attempt.result, misses ++ attempt.misses⟩

/-- A part that may be missing, for which `default` then stands. -/
def orDefault (default : α) (p : Recognizer α) : Recognizer α :=
  orElse p (succeed default)

def named (p : Recognizer α) : Recognizer α :=
  fun cs =>
    match p cs with
    | ⟨some taken, misses⟩ => ⟨some taken, misses⟩
    | ⟨none, misses⟩ => ⟨none, cs.length :: misses⟩

/-- As many parts as there are. A part that takes nothing ends the repetition. -/
def many (p : Recognizer α) (cs : List Char) : Attempt (List α) :=
  match p cs with
  | ⟨none, misses⟩ => ⟨some ([], cs), misses⟩
  | ⟨some (a, rest), misses⟩ =>
    if rest.length < cs.length then
      let attempt := many p rest
      ⟨attempt.result.map fun (as, rest) => (a :: as, rest), misses ++ attempt.misses⟩
    else ⟨some ([], cs), misses⟩
termination_by cs.length

/-- Parts with separators between them, at least one. -/
def separated (separator : Recognizer β) (p : Recognizer α) : Recognizer (List α) := do
  let first ← p
  let others ← many do
    let _ ← separator
    p
  succeed (first :: others)

end Recognizer

end DeviceMessages.Definition
