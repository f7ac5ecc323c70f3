import DeviceMessages.Format.Render
import DeviceMessages.Proofs.Text.Span

/-!
# Numbers in a field

A number is brought to the width of its field by spaces on one side of it or by zeros after its
sign. So what is left of it without the blanks at its ends is its sign, zeros, and its body
(`trim_padNumber`), and only a number that may be filled has such zeros.
-/

namespace DeviceMessages

/-- A text without blanks is what is left of it between blanks. -/
theorem Text.trim_between {before core after : List Char}
    (hbefore : ∀ c ∈ before, isBlank c = true) (hcore : ∀ c ∈ core, isBlank c = false)
    (hafter : ∀ c ∈ after, isBlank c = true) : trim (before ++ core ++ after) = core := by
  have hfront : (before ++ core ++ after).dropWhile isBlank =
      (core ++ after).dropWhile isBlank := by
    rw [List.append_assoc, List.dropWhile_append_of_pos hbefore]
  by_cases hempty : core = []
  · have hall : (after ++ []).dropWhile isBlank = [] := dropWhile_run hafter nofun
    rw [List.append_nil] at hall
    rw [trim, hfront, hempty, List.nil_append, hall]
    rfl
  · have hhead : ∀ c ∈ (core ++ after).head?, isBlank c = false := by
      intro c hc
      obtain ⟨first, others, rfl⟩ := List.exists_cons_of_ne_nil hempty
      cases hc
      exact hcore _ List.mem_cons_self
    have hlast : ∀ c ∈ core.reverse.head?, isBlank c = false := by
      intro c hc
      exact hcore c (List.mem_reverse.1 (List.mem_of_mem_head? hc))
    have hcut := dropWhile_run (fun c hc => hafter c (List.mem_reverse.1 hc)) hlast
    rw [trim, hfront, dropWhile_of_head? hhead, List.reverse_append, hcut, List.reverse_reverse]

namespace Directive

open Text (isBlank trim)

/-- A number in its field, with the spaces and zeros that fill it. -/
theorem padNumber_eq (d : Directive) (t : NumberText) :
    ∃ before zeros after, d.padNumber t = List.replicate before ' ' ++
        (t.sign ++ List.replicate zeros '0' ++ t.body) ++ List.replicate after ' ' ∧
      (t.zeroFill = false → zeros = 0) := by
  unfold padNumber padText
  by_cases hzero : (d.flags.zero && t.zeroFill && !d.flags.left) = true
  · rw [if_pos hzero]
    refine ⟨0, d.width.getD 0 - (t.sign ++ t.body).length, 0, by simp, ?_⟩
    intro hfill
    rw [hfill] at hzero
    simp at hzero
  · rw [if_neg hzero]
    by_cases hleft : d.flags.left = true
    · rw [if_pos hleft]
      exact ⟨0, 0, d.width.getD 0 - (t.sign ++ t.body).length, by simp, fun _ => rfl⟩
    · rw [if_neg hleft]
      exact ⟨d.width.getD 0 - (t.sign ++ t.body).length, 0, 0, by simp, fun _ => rfl⟩

/-- A character that does not fill fields is as often in a field as in the number. -/
theorem count_padNumber (d : Directive) (t : NumberText) {c : Char} (hspace : c ≠ ' ')
    (hzero : c ≠ '0') : (d.padNumber t).count c = t.sign.count c + t.body.count c := by
  obtain ⟨before, zeros, after, hpad, -⟩ := d.padNumber_eq t
  have hfill : ∀ {fill : Char} (n : Nat), c ≠ fill → (List.replicate n fill).count c = 0 := by
    intro fill n hne
    exact List.count_eq_zero.2 fun hmem => hne (List.eq_of_mem_replicate hmem)
  rw [hpad]
  simp only [List.count_append, hfill _ hspace, hfill _ hzero, Nat.zero_add, Nat.add_zero]

/-- What is left of a number without the blanks around it, where a blank that stands for its sign
counts as one of them. -/
theorem trim_padNumber (d : Directive) {t : NumberText}
    (hsign : (∀ c ∈ t.sign, isBlank c = true) ∨ ∀ c ∈ t.sign, isBlank c = false)
    (hbody : ∀ c ∈ t.body, isBlank c = false) :
    ∃ zeros, trim (d.padNumber t) = trim t.sign ++ (List.replicate zeros '0' ++ t.body) ∧
      (t.zeroFill = false → zeros = 0) := by
  obtain ⟨before, zeros, after, hpad, hzeros⟩ := d.padNumber_eq t
  refine ⟨zeros, ?_, hzeros⟩
  have hspaces : ∀ n, ∀ c ∈ List.replicate n ' ', isBlank c = true :=
    fun _ => List.forall_mem_replicate.2 (.inr rfl)
  have hrest : ∀ c ∈ List.replicate zeros '0' ++ t.body, isBlank c = false :=
    List.forall_mem_append.2 ⟨List.forall_mem_replicate.2 (.inr rfl), hbody⟩
  rcases hsign with hblank | hnot
  · have hnone : trim t.sign = [] := by
      have h : trim (t.sign ++ [] ++ []) = [] := Text.trim_between hblank nofun nofun
      simpa using h
    have hfront : ∀ c ∈ List.replicate before ' ' ++ t.sign, isBlank c = true :=
      List.forall_mem_append.2 ⟨hspaces before, hblank⟩
    have htrim := Text.trim_between hfront hrest (hspaces after)
    rw [hpad, hnone, List.nil_append]
    simpa only [List.append_assoc] using htrim
  · have hall : trim t.sign = t.sign := by
      have h : trim ([] ++ t.sign ++ []) = t.sign := Text.trim_between nofun hnot nofun
      simpa using h
    have hcore : ∀ c ∈ t.sign ++ (List.replicate zeros '0' ++ t.body), isBlank c = false :=
      List.forall_mem_append.2 ⟨hnot, hrest⟩
    have htrim := Text.trim_between (hspaces before) hcore (hspaces after)
    rw [hpad, hall]
    simpa only [List.append_assoc] using htrim

end Directive

end DeviceMessages
