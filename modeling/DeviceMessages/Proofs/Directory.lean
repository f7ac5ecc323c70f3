import DeviceMessages.Directory
import DeviceMessages.Proofs.Failure
import Mathlib.Data.List.Induction
import Mathlib.Data.List.Nodup

/-!
# Directories of definitions

A directory that was made of definitions lists what each of them came to, in their order, and its
table has the names of the definitions at their places. This is what one more definition preserves:
its name is given the place after the last one just before the list grows by one (`ListsAll.put`).
It follows that the table never leads outside of the list, and that a thing is found by its name and
by no other one (`ListsAll.isIndexed`).

What can be wrong is a repeated name, and whatever is wrong with a definition itself. For each
definition the repeated name comes first, so the faults of one more definition go to the end of the
list of all faults (`faultsInOrder_append_singleton`), just as the loop comes to it last.
-/

namespace DeviceMessages

variable {α δ ε : Type}

/-! ## All faults of definitions -/

/-- What is wrong with definitions, in their order: a name that an earlier definition has is
`repeated`, and each definition may have faults of its `own`. -/
def faultsInOrder (name : δ → String) (repeated : String → ε) (own : δ → List ε) (xs : List δ) :
    List ε :=
  xs.zipIdx.flatMap fun (x, i) =>
    (if name x ∈ (xs.take i).map name then [repeated (name x)] else []) ++ own x

/-- The names that have occurred before, in their order. -/
def repeatedNames (names : List String) : List String :=
  faultsInOrder id id (fun _ => []) names

section Faults

variable {name : δ → String} {repeated : String → ε} {own : δ → List ε}

theorem faultsInOrder_append_singleton (xs : List δ) (x : δ) :
    faultsInOrder name repeated own (xs ++ [x]) = faultsInOrder name repeated own xs ++
      ((if name x ∈ xs.map name then [repeated (name x)] else []) ++ own x) := by
  unfold faultsInOrder
  rw [List.zipIdx_append, List.flatMap_append]
  congr 1
  · refine List.flatMap_congr fun y hy => ?_
    have hlt : y.2 < xs.length := by
      have := List.snd_lt_of_mem_zipIdx hy
      omega
    simp only [List.take_append_of_le_length (Nat.le_of_lt hlt)]
  · simp

theorem faultsInOrder_eq_nil_iff (xs : List δ) :
    faultsInOrder name repeated own xs = [] ↔ (xs.map name).Nodup ∧ ∀ x ∈ xs, own x = [] := by
  induction xs using List.reverseRecOn with
  | nil => simp [faultsInOrder]
  | append_singleton xs x ih =>
      have hnodup : ((xs ++ [x]).map name).Nodup ↔
          (xs.map name).Nodup ∧ name x ∉ xs.map name := by
        rw [List.map_append, List.map_singleton, List.nodup_append_comm, List.singleton_append,
          List.nodup_cons, and_comm]
      have hown : (∀ y ∈ xs ++ [x], own y = []) ↔ (∀ y ∈ xs, own y = []) ∧ own x = [] := by
        rw [List.forall_mem_append, List.forall_mem_singleton]
      rw [faultsInOrder_append_singleton, List.append_eq_nil_iff, List.append_eq_nil_iff, ih,
        hnodup, hown]
      by_cases hmem : name x ∈ xs.map name
      · simp [hmem]
      · simp [hmem, and_assoc]

theorem repeatedNames_append_singleton (names : List String) (n : String) :
    repeatedNames (names ++ [n]) = repeatedNames names ++ if n ∈ names then [n] else [] := by
  rw [repeatedNames, faultsInOrder_append_singleton, List.map_id, List.append_nil]
  rfl

theorem repeatedNames_eq_nil_iff (names : List String) :
    repeatedNames names = [] ↔ names.Nodup := by
  rw [repeatedNames, faultsInOrder_eq_nil_iff, List.map_id, and_iff_left fun _ _ => rfl]

end Faults

namespace Directory

/-! ## Filling a directory -/

/-- The directory lists what the definitions come to, and has the place of each of their names. -/
structure ListsAll (name : δ → String) (make : δ → Except ε α) (xs : List δ) (d : Directory α) :
    Prop where
  made : List.Forall₂ (fun x a => make x = .ok a) xs d.entries
  place : ∀ n i, d.positions.find? n = some i ↔ (xs.map name)[i]? = some n

section Filling

variable {name : δ → String} {repeated : String → ε} {make : δ → Except ε α}
  {xs : List δ} {d : Directory α}

theorem getElem?_append_singleton_eq_some_iff {β : Type} {bs : List β} {b c : β} {i : Nat} :
    (bs ++ [b])[i]? = some c ↔ bs[i]? = some c ∨ i = bs.length ∧ b = c := by
  by_cases hlt : i < bs.length
  · have hne : i ≠ bs.length := by omega
    simp [List.getElem?_append_left hlt, hne]
  · have hge : bs.length ≤ i := by omega
    rw [List.getElem?_append_right hge, List.getElem?_eq_none hge, List.getElem?_singleton]
    by_cases heq : i = bs.length
    · simp [heq]
    · have hpos : i - bs.length ≠ 0 := by omega
      simp [heq, hpos]

theorem listsAll_empty : ListsAll name make [] (empty : Directory α) where
  made := .nil
  place n i := by simp [empty]

theorem ListsAll.contains_iff (h : ListsAll name make xs d) (n : String) :
    d.positions.contains n = true ↔ n ∈ xs.map name := by
  rw [Table.contains, Option.isSome_iff_exists, List.mem_iff_getElem?]
  exact exists_congr (h.place n)

/-- One more definition that has a new name and can be made goes to the next place. -/
theorem ListsAll.put (h : ListsAll name make xs d) {x : δ} {a : α} (hnew : name x ∉ xs.map name)
    (hmake : make x = .ok a) : ListsAll name make (xs ++ [x]) ((d.reserve (name x)).put a) where
  made := by
    rw [entries_put, entries_reserve]
    exact List.rel_append h.made (.cons hmake .nil)
  place n i := by
    have hlength : d.entries.length = (xs.map name).length := by
      rw [List.length_map, h.made.length_eq]
    rw [positions_put, positions_reserve, Table.find?_insert, hlength, List.map_append,
      List.map_singleton, getElem?_append_singleton_eq_some_iff]
    by_cases hn : n = name x
    · subst hn
      have hnone : ¬ (xs.map name)[i]? = some (name x) := by
        intro hsome
        exact hnew (List.mem_of_getElem? hsome)
      rw [if_pos rfl, or_iff_right hnone, and_iff_left rfl, Option.some.injEq, eq_comm]
    · have hne : ¬ (i = (xs.map name).length ∧ name x = n) := by
        intro h
        exact hn h.2.symm
      rw [if_neg hn, h.place, or_iff_left hne]

/-! ## What a run reports and what it makes -/

theorem reportsFirst_enter {own : List ε} (h : ListsAll name make xs d) {x : δ}
    (hown : ReportsFirst (make x) own) :
    ReportsFirst (d.enter name repeated make x)
      ((if name x ∈ xs.map name then [repeated (name x)] else []) ++ own) := by
  unfold Directory.enter
  by_cases hmem : name x ∈ xs.map name
  · rw [if_pos ((h.contains_iff _).2 hmem), if_pos hmem]
    rfl
  · rw [if_neg (mt (h.contains_iff _).1 hmem), if_neg hmem, List.nil_append]
    exact hown.map (d.reserve (name x)).put

theorem listsAll_of_enter (h : ListsAll name make xs d) {x : δ} {d' : Directory α}
    (henter : d.enter name repeated make x = .ok d') : ListsAll name make (xs ++ [x]) d' := by
  unfold Directory.enter at henter
  by_cases hmem : d.positions.contains (name x) = true
  · rw [if_pos hmem] at henter
    cases henter
  · rw [if_neg hmem] at henter
    obtain ⟨a, hmake, heq⟩ := exists_of_bind_eq_ok henter
    cases heq
    exact h.put (mt (h.contains_iff _).2 hmem) hmake

theorem ofDefinitions_append_singleton (xs : List δ) (x : δ) :
    ofDefinitions name repeated make (xs ++ [x]) =
      ofDefinitions name repeated make xs >>= fun d => d.enter name repeated make x := by
  simp [ofDefinitions, List.foldlM_append]

theorem listsAll_of_ofDefinitions {d : Directory α}
    (h : ofDefinitions name repeated make xs = .ok d) : ListsAll name make xs d := by
  induction xs using List.reverseRecOn generalizing d with
  | nil =>
      cases h
      exact listsAll_empty
  | append_singleton xs x ih =>
      rw [ofDefinitions_append_singleton] at h
      obtain ⟨before, hbefore, henter⟩ := exists_of_bind_eq_ok h
      exact listsAll_of_enter (ih hbefore) henter

theorem reportsFirst_ofDefinitions {own : δ → List ε} (xs : List δ)
    (hown : ∀ x ∈ xs, ReportsFirst (make x) (own x)) :
    ReportsFirst (ofDefinitions name repeated make xs) (faultsInOrder name repeated own xs) := by
  induction xs using List.reverseRecOn with
  | nil => exact .ok empty
  | append_singleton xs x ih =>
      obtain ⟨hxs, hx⟩ := List.forall_mem_append.1 hown
      rw [ofDefinitions_append_singleton, faultsInOrder_append_singleton]
      exact (ih hxs).bind fun d hd =>
        reportsFirst_enter (listsAll_of_ofDefinitions hd) (hx x List.mem_cons_self)

/-! ## Looking up -/

/-- A directory finds each thing in it by its name, finds nothing else, and its table does not lead
outside of its list. -/
structure IsIndexed (nameOf : α → String) (d : Directory α) : Prop where
  distinct : (d.entries.map nameOf).Nodup
  place_lt : ∀ n i, d.positions.find? n = some i → i < d.entries.length
  find?_eq_some_iff : ∀ n a, d.find? n = some a ↔ a ∈ d.entries ∧ nameOf a = n
  find?_eq_none_iff : ∀ n, d.find? n = none ↔ n ∉ d.entries.map nameOf

/-- Names that are found at all of their places are different. -/
theorem nodup_of_place {names : List String} {find : String → Option Nat}
    (h : ∀ n i, find n = some i ↔ names[i]? = some n) : names.Nodup := by
  rw [List.nodup_iff_getElem?_ne_getElem?]
  intro i j hij hj heq
  have hplace : find names[j] = some j := (h _ _).2 (List.getElem?_eq_getElem hj)
  have hother : find names[j] = some i := (h _ _).2 (heq.trans (List.getElem?_eq_getElem hj))
  have : j = i := Option.some.inj (hplace.symm.trans hother)
  omega

theorem ListsAll.isIndexed {nameOf : α → String} (h : ListsAll name make xs d)
    (hname : ∀ x a, make x = .ok a → nameOf a = name x) : d.IsIndexed nameOf := by
  have hplace : ∀ n i, d.positions.find? n = some i ↔ (d.entries.map nameOf)[i]? = some n := by
    intro n i
    rw [h.place, map_eq_map_of_forall₂ h.made hname]
  have hsome : ∀ n a, d.find? n = some a ↔ a ∈ d.entries ∧ nameOf a = n := by
    intro n a
    simp only [find?, Option.bind_eq_some_iff, hplace, List.getElem?_map, Option.map_eq_some_iff]
    constructor
    · intro ⟨i, ⟨b, hb, hn⟩, ha⟩
      cases hb.symm.trans ha
      exact ⟨List.mem_of_getElem? ha, hn⟩
    · intro ⟨ha, hn⟩
      obtain ⟨i, hi⟩ := List.mem_iff_getElem?.1 ha
      exact ⟨i, ⟨a, hi, hn⟩, hi⟩
  refine ⟨nodup_of_place hplace, ?_, hsome, ?_⟩
  · intro n i hi
    have hlt := List.getElem?_eq_some_iff.1 ((hplace n i).1 hi)
    rw [← List.length_map nameOf]
    exact hlt.1
  · intro n
    rw [Option.eq_none_iff_forall_ne_some, List.mem_map]
    simp only [ne_eq, hsome, not_exists]

end Filling

end Directory

end DeviceMessages
