import Mathlib.Data.List.Forall2

/-!
# Computations that can fail

Readers and decoders fail with the first error that they meet. The laws here take a computation
apart that is made of others: what its parts gave if it succeeds, and whose error it has if it
fails. `errorOf` is the error alone, for where it does not depend on what was computed before it.

A computation that stops at its first error is measured against the list of all that is wrong with
its input: `ReportsFirst` says that it succeeds if the list is empty, and fails with the first of
the list otherwise. The lists are put together as the computations are.
-/

namespace DeviceMessages

variable {ε α β : Type}

/-! ## Success -/

theorem exists_of_bind_eq_ok {x : Except ε α} {next : α → Except ε β} {b : β}
    (h : (x >>= next) = .ok b) : ∃ a, x = .ok a ∧ next a = .ok b := by
  cases x with
  | error e => cases h
  | ok a => exact ⟨a, rfl, h⟩

theorem exists_of_map_eq_ok {x : Except ε α} {f : α → β} {b : β} (h : x.map f = .ok b) :
    ∃ a, x = .ok a ∧ f a = b := by
  cases x with
  | error e => cases h
  | ok a =>
      cases h
      exact ⟨a, rfl, rfl⟩

/-- A run of computations succeeds if each of them does. -/
theorem mapM_map_eq_ok {compute : β → Except ε α} {write : α → β} {as : List α}
    (h : ∀ a ∈ as, compute (write a) = .ok a) : (as.map write).mapM compute = .ok as := by
  induction as with
  | nil => rfl
  | cons a as ih =>
      obtain ⟨ha, has⟩ := List.forall_mem_cons.1 h
      rw [List.map_cons, List.mapM_cons, ha, ih has]
      rfl

theorem forall₂_of_mapM_eq_ok {compute : α → Except ε β} {as : List α} {bs : List β}
    (h : as.mapM compute = .ok bs) : List.Forall₂ (fun a b => compute a = .ok b) as bs := by
  induction as generalizing bs with
  | nil =>
      cases h
      exact .nil
  | cons a as ih =>
      rw [List.mapM_cons] at h
      obtain ⟨b, hb, hrest⟩ := exists_of_bind_eq_ok h
      obtain ⟨others, hothers, heq⟩ := exists_of_bind_eq_ok hrest
      cases heq
      exact .cons hb (ih hothers)

/-- What is kept of each thing is kept of the list of all of them. -/
theorem map_eq_map_of_forall₂ {γ : Type} {R : α → β → Prop} {as : List α} {bs : List β}
    {f : α → γ} {g : β → γ} (h : List.Forall₂ R as bs) (hkept : ∀ a b, R a b → g b = f a) :
    bs.map g = as.map f := by
  induction h with
  | nil => rfl
  | cons hhead _ ih => rw [List.map_cons, List.map_cons, ih, hkept _ _ hhead]

theorem exists_mem_of_forall₂ {R : α → β → Prop} {as : List α} {bs : List β}
    (h : List.Forall₂ R as bs) {a : α} (ha : a ∈ as) : ∃ b ∈ bs, R a b := by
  induction h with
  | nil => cases ha
  | @cons a' b as bs hab _ ih =>
      rcases List.mem_cons.1 ha with rfl | ha
      · exact ⟨b, List.mem_cons_self, hab⟩
      · obtain ⟨b', hb', hrest⟩ := ih ha
        exact ⟨b', List.mem_cons_of_mem b hb', hrest⟩

theorem eq_ok_of_mapError_eq_ok {ε' : Type} {x : Except ε α} {g : ε → ε'} {a : α}
    (h : x.mapError g = .ok a) : x = .ok a := by
  cases x with
  | error e => cases h
  | ok b => cases h; rfl

/-! ## Failure -/

/-- The error of a computation that fails. -/
def errorOf : Except ε α → Option ε
  | .error e => some e
  | .ok _ => none

theorem errorOf_eq_none_iff {x : Except ε α} : errorOf x = none ↔ ∃ a, x = .ok a := by
  cases x with
  | error e => simp [errorOf]
  | ok a => simp [errorOf]

theorem errorOf_eq_some_iff {x : Except ε α} {e : ε} : errorOf x = some e ↔ x = .error e := by
  cases x with
  | error e' => simp [errorOf]
  | ok a => simp [errorOf]

theorem eq_error_of_map_eq_error {x : Except ε α} {f : α → β} {e : ε}
    (h : x.map f = .error e) : x = .error e := by
  cases x with
  | error e => cases h; rfl
  | ok a => cases h

/-- What becomes of the result and what becomes of the error do not meet. -/
theorem mapError_map {ε' : Type} (x : Except ε α) (f : α → β) (g : ε → ε') :
    (x.map f).mapError g = (x.mapError g).map f := by
  cases x <;> rfl

/-- One computation after another that always fails with the same error, if it is reached. -/
theorem errorOf_bind {x : Except ε α} {next : α → Except ε β} {e? : Option ε}
    (h : ∀ a, errorOf (next a) = e?) : errorOf (x >>= next) = (errorOf x).or e? := by
  cases x with
  | error e => rfl
  | ok a => exact h a

theorem errorOf_map {x : Except ε α} {make : α → β} :
    errorOf (x >>= fun a => .ok (make a)) = errorOf x := by
  rw [errorOf_bind fun a => show errorOf (Except.ok (make a)) = none from rfl, Option.or_none]

/-! ## The first of several faults -/

/-- The computation succeeds if there are no faults, and fails with the first one otherwise. -/
def ReportsFirst (x : Except ε α) (faults : List ε) : Prop :=
  errorOf x = faults.head?

namespace ReportsFirst

variable {x : Except ε α} {faults : List ε}

theorem exists_eq_ok_iff (h : ReportsFirst x faults) : (∃ a, x = .ok a) ↔ faults = [] := by
  rw [← errorOf_eq_none_iff, h, List.head?_eq_none_iff]

theorem eq_error_iff (h : ReportsFirst x faults) {e : ε} :
    x = .error e ↔ faults.head? = some e := by
  rw [← errorOf_eq_some_iff, h]

theorem self (x : Except ε α) : ReportsFirst x (errorOf x).toList := by
  rw [ReportsFirst, Option.head?_toList]

theorem ok (a : α) : ReportsFirst (.ok a : Except ε α) [] := rfl

theorem mapError {ε' : Type} (h : ReportsFirst x faults) (g : ε → ε') :
    ReportsFirst (x.mapError g) (faults.map g) := by
  rw [ReportsFirst, List.head?_map, ← h]
  cases x <;> rfl

/-- The faults of what comes next count if there are no earlier ones, and then the earlier
computation has a result. -/
theorem bind {next : α → Except ε β} {later : List ε} (h : ReportsFirst x faults)
    (hnext : ∀ a, x = .ok a → ReportsFirst (next a) later) :
    ReportsFirst (x >>= next) (faults ++ later) := by
  rw [ReportsFirst, List.head?_append, ← h]
  cases x with
  | error e => rfl
  | ok a => exact hnext a rfl

theorem map (h : ReportsFirst x faults) (make : α → β) :
    ReportsFirst (x >>= fun a => .ok (make a)) faults := by
  rw [ReportsFirst, errorOf_map]
  exact h

theorem mapM {compute : α → Except ε β} {faultsOf : α → List ε} (as : List α)
    (h : ∀ a ∈ as, ReportsFirst (compute a) (faultsOf a)) :
    ReportsFirst (as.mapM compute) (as.flatMap faultsOf) := by
  induction as with
  | nil => exact ok []
  | cons a as ih =>
      have hothers := ih fun b hb => h b (List.mem_cons_of_mem a hb)
      rw [List.mapM_cons, List.flatMap_cons]
      exact (h a List.mem_cons_self).bind fun b _ => hothers.map (b :: ·)

end ReportsFirst

end DeviceMessages
