import DeviceMessages.Definition.Recognizer

/-!
# What recognizers take

A recognizer answers with what it takes and with the places where parts were looked for in vain.
The laws here say what each combinator takes; they leave the places aside. Recognizers are a lawful
monad, places included, so that two ways to put the same parts one after the other are equal.
-/

namespace DeviceMessages.Definition.Recognizer

variable {α β : Type} {cs rest mid : List Char}

private theorem bind_eq (p : Recognizer α) (next : α → Recognizer β) (cs : List Char) :
    (p >>= next) cs = andThen p next cs := rfl

@[simp] theorem result_succeed (a : α) (cs : List Char) :
    (succeed a cs).result = some (a, cs) := rfl

@[simp] theorem result_named (p : Recognizer α) (cs : List Char) :
    (named p cs).result = (p cs).result := by
  unfold named
  split
  · next h => rw [h]
  · next h => rw [h]

theorem result_bind (p : Recognizer α) (next : α → Recognizer β) (cs : List Char) :
    ((p >>= next) cs).result = (p cs).result.bind fun taken => (next taken.1 taken.2).result := by
  rw [bind_eq]
  unfold andThen
  split
  · next h => rw [h]; rfl
  · next h => rw [h]; rfl

theorem result_bind_eq_some {p : Recognizer α} {next : α → Recognizer β} {b : β} :
    ((p >>= next) cs).result = some (b, rest) ↔
      ∃ a mid, (p cs).result = some (a, mid) ∧ (next a mid).result = some (b, rest) := by
  simp [result_bind, Option.bind_eq_some_iff]

theorem result_orElse (p q : Recognizer α) (cs : List Char) :
    (orElse p q cs).result = (p cs).result.or (q cs).result := by
  unfold orElse
  split
  · next h => rw [h]; rfl
  · next h => rw [h]; rfl

theorem result_orDefault (default : α) (p : Recognizer α) (cs : List Char) :
    (orDefault default p cs).result = some ((p cs).result.getD (default, cs)) := by
  rw [orDefault, result_orElse, result_succeed]
  cases (p cs).result <;> rfl

theorem result_many_of_none {p : Recognizer α} (h : (p cs).result = none) :
    (many p cs).result = some ([], cs) := by
  rw [many]
  split
  · rfl
  · next hsome => rw [hsome] at h; cases h

theorem result_many_of_some {p : Recognizer α} {a : α} (h : (p cs).result = some (a, mid))
    (hlt : mid.length < cs.length) :
    (many p cs).result = (many p mid).result.map fun taken => (a :: taken.1, taken.2) := by
  rw [many]
  split
  · next hnone => rw [hnone] at h; cases h
  · next hsome =>
      rw [hsome] at h
      cases h
      rw [if_pos hlt]

theorem result_many_of_stuck {p : Recognizer α} {a : α} (h : (p cs).result = some (a, mid))
    (hle : ¬ mid.length < cs.length) : (many p cs).result = some ([], cs) := by
  rw [many]
  split
  · rfl
  · next hsome =>
      rw [hsome] at h
      cases h
      rw [if_neg hle]

/-! ## The monad laws -/

private theorem andThen_succeed (p : Recognizer α) : andThen p succeed = p := by
  funext cs
  unfold andThen
  split
  · next h => rw [h]
  · next h => simp only [h, succeed, List.append_nil]

private theorem succeed_andThen (a : α) (next : α → Recognizer β) :
    andThen (succeed a) next = next a := by
  funext cs
  show Attempt.mk (next a cs).result ([] ++ (next a cs).misses) = next a cs
  rw [List.nil_append]

private theorem andThen_assoc {γ : Type} (p : Recognizer α) (next : α → Recognizer β)
    (after : β → Recognizer γ) :
    andThen (andThen p next) after = andThen p fun a => andThen (next a) after := by
  funext cs
  unfold andThen
  cases hp : p cs with
  | mk result misses =>
      cases result with
      | none => rfl
      | some taken =>
          obtain ⟨a, rest⟩ := taken
          cases hnext : next a rest with
          | mk result misses' =>
              cases result with
              | none => simp only [hnext]
              | some taken => simp only [hnext, List.append_assoc]

instance : LawfulMonad Recognizer :=
  LawfulMonad.mk' Recognizer andThen_succeed succeed_andThen andThen_assoc

end DeviceMessages.Definition.Recognizer
