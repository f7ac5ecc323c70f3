import DeviceMessages.Text.Basic

/-!
# Cutting a text at the first character outside a class

The readers of this library take characters while they are of a class and look at the one where the
class ends. The two directions of that are stated here once: a run of the class followed by a
character outside it is cut exactly there, and a text that is cut at a character has that shape.
The last part does the same for texts that are cut at every separator.
-/

namespace DeviceMessages.Text

variable {inClass : Char → Bool} {run rest cs : List Char} {stop : Char}

/-- A text that starts outside the class has no run of it at its front. -/
theorem takeWhile_of_head? (hrest : ∀ c ∈ rest.head?, inClass c = false) :
    rest.takeWhile inClass = [] := by
  cases rest with
  | nil => rfl
  | cons c cs => simp [hrest c rfl]

theorem dropWhile_of_head? (hrest : ∀ c ∈ rest.head?, inClass c = false) :
    rest.dropWhile inClass = rest := by
  cases rest with
  | nil => rfl
  | cons c cs => simp [hrest c rfl]

/-- A run of the class that ends before `rest` is taken whole. -/
theorem takeWhile_run (hrun : ∀ c ∈ run, inClass c = true)
    (hrest : ∀ c ∈ rest.head?, inClass c = false) : (run ++ rest).takeWhile inClass = run := by
  rw [List.takeWhile_append_of_pos hrun, takeWhile_of_head? hrest, List.append_nil]

/-- What follows a run of the class is left as it is. -/
theorem dropWhile_run (hrun : ∀ c ∈ run, inClass c = true)
    (hrest : ∀ c ∈ rest.head?, inClass c = false) : (run ++ rest).dropWhile inClass = rest := by
  rw [List.dropWhile_append_of_pos hrun, dropWhile_of_head? hrest]

theorem mem_takeWhile {c : Char} (h : c ∈ cs.takeWhile inClass) : inClass c = true :=
  List.all_eq_true.1 List.all_takeWhile c h

/-- Nothing is lost when a text is cut. -/
theorem takeWhile_append_of_dropWhile (h : cs.dropWhile inClass = rest) :
    cs = cs.takeWhile inClass ++ rest := by
  rw [← h, List.takeWhile_append_dropWhile]

/-- The character at which a text is cut is outside the class. -/
theorem stop_of_dropWhile (h : cs.dropWhile inClass = stop :: rest) : inClass stop = false := by
  have hne : cs.dropWhile inClass ≠ [] := by rw [h]; exact List.cons_ne_nil _ _
  have hnot := List.head_dropWhile_not inClass hne
  simpa [h] using hnot

/-- Every text can be cut where a run of the class at its front ends. -/
theorem exists_run (inClass : Char → Bool) (cs : List Char) :
    ∃ run rest, cs = run ++ rest ∧ (∀ c ∈ run, inClass c = true) ∧
      ∀ c ∈ rest.head?, inClass c = false := by
  refine ⟨cs.takeWhile inClass, cs.dropWhile inClass, List.takeWhile_append_dropWhile.symm,
    fun c hc => mem_takeWhile hc, ?_⟩
  intro c hc
  obtain ⟨others, hothers⟩ := List.head?_eq_some_iff.1 hc
  exact stop_of_dropWhile hothers

/-- What follows the character at which a text is cut does not change the run before it. -/
theorem takeWhile_append_of_stop (h : cs.dropWhile inClass = stop :: rest) (more : List Char) :
    (cs ++ more).takeWhile inClass = cs.takeWhile inClass := by
  have hcut : cs ++ more = cs.takeWhile inClass ++ stop :: (rest ++ more) := by
    conv => lhs; rw [takeWhile_append_of_dropWhile h]
    simp
  rw [hcut]
  refine takeWhile_run (fun c hc => mem_takeWhile hc) ?_
  intro c hc
  cases hc
  exact stop_of_dropWhile h

/-- A text is cut at the same character whatever follows it. -/
theorem dropWhile_append_of_stop (h : cs.dropWhile inClass = stop :: rest) (more : List Char) :
    (cs ++ more).dropWhile inClass = stop :: (rest ++ more) := by
  rw [List.dropWhile_append, h]
  rfl

/-! ## Parts between separators -/

variable {separator : Char}

theorem splitOn_of_notMem {part : List Char} (h : separator ∉ part) :
    splitOn separator part = [part] := by
  induction part with
  | nil => rfl
  | cons c part ih =>
      have hc : ¬ c = separator := fun hc => h (by simp [hc])
      rw [splitOn, if_neg hc, ih fun hmem => h (List.mem_cons_of_mem c hmem)]

theorem splitOn_append_cons {part : List Char} (h : separator ∉ part) (cs : List Char) :
    splitOn separator (part ++ separator :: cs) = part :: splitOn separator cs := by
  induction part with
  | nil => simp [splitOn]
  | cons c part ih =>
      have hc : ¬ c = separator := fun hc => h (by simp [hc])
      rw [List.cons_append, splitOn, if_neg hc,
        ih fun hmem => h (List.mem_cons_of_mem c hmem)]

/-- Splitting undoes joining when no part holds a separator. -/
theorem splitOn_joinWith {parts : List (List Char)} (hne : parts ≠ [])
    (hparts : ∀ part ∈ parts, separator ∉ part) :
    splitOn separator (joinWith separator parts) = parts := by
  induction parts with
  | nil => exact absurd rfl hne
  | cons part parts ih =>
      have hpart := hparts part List.mem_cons_self
      cases parts with
      | nil => exact splitOn_of_notMem hpart
      | cons other parts =>
          have htail := ih (List.cons_ne_nil _ _)
            fun q hq => hparts q (List.mem_cons_of_mem part hq)
          show splitOn separator (part ++ separator :: joinWith separator (other :: parts)) = _
          rw [splitOn_append_cons hpart, htail]

/-- No part of a split text holds a separator. -/
theorem notMem_of_mem_splitOn {part : List Char} (h : part ∈ splitOn separator cs) :
    separator ∉ part := by
  induction cs generalizing part with
  | nil => simp_all [splitOn]
  | cons c cs ih =>
      unfold splitOn at h
      split at h
      · rcases List.mem_cons.1 h with rfl | h
        · exact List.not_mem_nil
        · exact ih h
      · next hc =>
          split at h
          · next first others hsplit =>
              rcases List.mem_cons.1 h with rfl | h
              · have hfirst : separator ∉ first := ih (by rw [hsplit]; exact List.mem_cons_self)
                exact fun hmem => (List.mem_cons.1 hmem).elim (fun e => hc e.symm) hfirst
              · exact ih (by rw [hsplit]; exact List.mem_cons_of_mem _ h)
          · next hsplit => exact absurd hsplit (splitOn_ne_nil separator cs)

/-- Every character of a part is one of the text. -/
theorem mem_of_mem_splitOn {part : List Char} {c : Char} (h : part ∈ splitOn separator cs)
    (hc : c ∈ part) : c ∈ cs := by
  induction cs generalizing part with
  | nil => simp_all [splitOn]
  | cons d cs ih =>
      unfold splitOn at h
      split at h
      · rcases List.mem_cons.1 h with rfl | h
        · exact absurd hc List.not_mem_nil
        · exact List.mem_cons_of_mem d (ih h hc)
      · split at h
        · next first others hsplit =>
            rcases List.mem_cons.1 h with rfl | h
            · rcases List.mem_cons.1 hc with rfl | hc
              · exact List.mem_cons_self
              · exact List.mem_cons_of_mem d (ih (by rw [hsplit]; exact List.mem_cons_self) hc)
            · exact List.mem_cons_of_mem d
                (ih (by rw [hsplit]; exact List.mem_cons_of_mem _ h) hc)
        · next hsplit => exact absurd hsplit (splitOn_ne_nil separator cs)

/-- Every character of a joined text is the separator or one of a part. -/
theorem mem_of_mem_joinWith {parts : List (List Char)} {c : Char} (hne : c ≠ separator)
    (h : c ∈ joinWith separator parts) : ∃ part ∈ parts, c ∈ part := by
  induction parts with
  | nil => exact absurd h List.not_mem_nil
  | cons part parts ih =>
      cases parts with
      | nil => exact ⟨part, List.mem_cons_self, h⟩
      | cons other parts =>
          have hsplit : c ∈ part ++ separator :: joinWith separator (other :: parts) := h
          rcases List.mem_append.1 hsplit with hpart | hrest
          · exact ⟨part, List.mem_cons_self, hpart⟩
          · obtain ⟨q, hq, hc⟩ := ih ((List.mem_cons.1 hrest).resolve_left hne)
            exact ⟨q, List.mem_cons_of_mem part hq, hc⟩

end DeviceMessages.Text
