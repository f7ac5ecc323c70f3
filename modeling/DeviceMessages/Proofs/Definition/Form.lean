import DeviceMessages.Proofs.Definition.Layout
import Mathlib.Data.List.Forall2

/-!
# Forms: grammars and their recognizers

A form is a grammar over tokens that says what tree is made of what it derives. It can be read in
two ways. `Form.Derives` reads it as a context-free grammar: either alternative may be taken, an
optional part may be there or not, and a repetition may have any length. `Form.recognizer` reads it
as a recognizer: the first alternative that succeeds is taken, and an optional part or a repetition
takes all it can.

The two readings agree if one token of lookahead decides every alternative, every option and every
further round of a repetition, which is the computed condition `Form.determinate`.

* `written_of_recognizer`: what is recognized is derived, for every form.
* `recognizer_of_derives`: what is derived is recognized, for a determinate form and in front of a
  text that cannot extend it.
-/

namespace DeviceMessages.Definition

open Recognizer

/-- A grammar for trees of a type. -/
inductive Form : Type → Type 1 where
  | word (w : Word) : Form Unit
  | name : Form String
  | number : Form (List Char)
  | quoted (use : Use) : Form (List Char)
  | pair {α β : Type} (f : Form α) (g : Form β) : Form (α × β)
  | choice {α : Type} (f g : Form α) : Form α
  /-- A part that may be missing, for which a default then stands. -/
  | optional {α : Type} (default : α) (f : Form α) : Form α
  | many {α : Type} (f : Form α) : Form (List α)
  | map {α β : Type} (make : α → β) (f : Form α) : Form β
  /-- A part that is named when it is not found. -/
  | named {α : Type} (f : Form α) : Form α

namespace Form

/-- The tokens are derived, and make the tree. -/
def Derives : {α : Type} → Form α → α → List Token → Prop
  | _, .word w, _, ts => ts = [.word w]
  | _, .name, text, ts => ts = [.name text]
  | _, .number, digits, ts => ts = [.number digits]
  | _, .quoted use, body, ts => ts = [.quoted use body]
  | _, .pair f g, tree, ts =>
    ∃ us vs, ts = us ++ vs ∧ f.Derives tree.1 us ∧ g.Derives tree.2 vs
  | _, .choice f g, tree, ts => f.Derives tree ts ∨ g.Derives tree ts
  | _, .optional default f, tree, ts => (tree = default ∧ ts = []) ∨ f.Derives tree ts
  | _, .many f, trees, ts => ∃ tss, List.Forall₂ f.Derives trees tss ∧ ts = tss.flatten
  | _, .map make f, tree, ts => ∃ a, make a = tree ∧ f.Derives a ts
  | _, .named f, tree, ts => f.Derives tree ts

/-- The recognizer of the same shape. -/
def recognizer : {α : Type} → Form α → Recognizer α
  | _, .word w => fixed w.text
  | _, .name => Definition.name
  | _, .number => Definition.number
  | _, .quoted _ => quotedBody
  | _, .pair f g => do
    let a ← f.recognizer
    let b ← g.recognizer
    succeed (a, b)
  | _, .choice f g => orElse f.recognizer g.recognizer
  | _, .optional default f => orDefault default f.recognizer
  | _, .many f => Recognizer.many f.recognizer
  | _, .map make f => do
    let a ← f.recognizer
    succeed (make a)
  | _, .named f => Recognizer.named f.recognizer

/-! ## Lookahead -/

/-- Whether no tokens at all are derived. -/
def nullable : {α : Type} → Form α → Bool
  | _, .word _ => false
  | _, .name => false
  | _, .number => false
  | _, .quoted _ => false
  | _, .pair f g => f.nullable && g.nullable
  | _, .choice f g => f.nullable || g.nullable
  | _, .optional _ _ => true
  | _, .many _ => true
  | _, .map _ f => f.nullable
  | _, .named f => f.nullable

/-- How the first of the derived tokens can begin. -/
def first : {α : Type} → Form α → List Lead
  | _, .word w => [.char w.head]
  | _, .name => [.nameStart]
  | _, .number => [.digit]
  | _, .quoted _ => [.char '"']
  | _, .pair f g => f.first ++ if f.nullable then g.first else []
  | _, .choice f g => f.first ++ g.first
  | _, .optional _ f => f.first
  | _, .many f => f.first
  | _, .map _ f => f.first
  | _, .named f => f.first

/-- The characters with which a text can go on that already has all that it needs. -/
def extension : {α : Type} → Form α → List Lead
  | _, .word _ => []
  | _, .name => [.nameChar]
  | _, .number => [.digit]
  | _, .quoted _ => []
  | _, .pair f g => g.extension ++ if g.nullable then f.extension else []
  | _, .choice f g => f.extension ++ g.extension
  | _, .optional _ f => f.first ++ f.extension
  | _, .many f => f.first ++ f.extension
  | _, .map _ f => f.extension
  | _, .named f => f.extension

end Form

/-- Two classes are known to have no character in common. -/
def Lead.apart : Lead → Lead → Bool
  | .char c, .char d => c != d
  | .char c, m => !m.has c
  | l, .char d => !l.has d
  | _, _ => false

/-- No class of one list has a character in common with one of the other. -/
def Lead.allApart (ls ms : List Lead) : Bool :=
  ls.all fun l => ms.all fun m => l.apart m

theorem Lead.has_eq_false_of_apart {l m : Lead} {c : Char} (h : l.apart m = true)
    (hc : m.has c = true) : l.has c = false := by
  cases l with
  | char d =>
      have hne : m.has d = false := by
        cases m <;> simpa [Lead.apart, Lead.has, Bool.not_eq_true'] using h
      cases hcd : (c == d) with
      | false => exact hcd
      | true =>
          rw [beq_iff_eq.1 hcd, hne] at hc
          cases hc
  | _ =>
      cases m with
      | char d =>
          obtain rfl : c = d := beq_iff_eq.1 hc
          simpa [Lead.apart] using h
      | _ => cases h

theorem Lead.has_eq_false_of_allApart {ls ms : List Lead} {l m : Lead} {c : Char}
    (h : Lead.allApart ls ms = true) (hl : l ∈ ls) (hm : m ∈ ms) (hc : m.has c = true) :
    l.has c = false :=
  has_eq_false_of_apart (List.all_eq_true.1 (List.all_eq_true.1 h l hl) m hm) hc

namespace Form

/-- One token of lookahead decides how to go on: alternatives begin differently, and what follows a
part cannot be taken for its continuation. -/
def determinate : {α : Type} → Form α → Bool
  | _, .word _ => true
  | _, .name => true
  | _, .number => true
  | _, .quoted _ => true
  | _, .pair f g => f.determinate && g.determinate && Lead.allApart f.extension g.first
  | _, .choice f g =>
    f.determinate && g.determinate && Lead.allApart f.first g.first && !f.nullable && !g.nullable
  | _, .optional _ f => f.determinate && !f.nullable
  | _, .many f => f.determinate && !f.nullable && Lead.allApart f.extension f.first
  | _, .map _ f => f.determinate
  | _, .named f => f.determinate

/-! ## What is recognized is derived -/

variable {α β : Type} {a : α} {b : β} {t : Token} {ts us : List Token} {cs mid rest : List Char}

private theorem exists_derives_of_many {f : Form α} {as : List α}
    (hf : ∀ {cs a rest}, (f.recognizer cs).result = some (a, rest) →
      ∃ ts, f.Derives a ts ∧ Written ts cs rest)
    (h : (Recognizer.many f.recognizer cs).result = some (as, rest)) :
    ∃ tss, List.Forall₂ f.Derives as tss ∧ Written tss.flatten cs rest := by
  induction cs using Recognizer.many.induct f.recognizer generalizing as with
  | case1 cs misses hmiss =>
      rw [result_many_of_none (by rw [hmiss])] at h
      cases h
      exact ⟨[], .nil, .nil⟩
  | case2 cs a mid misses hhit hlt ih =>
      have hresult : (f.recognizer cs).result = some (a, mid) := by rw [hhit]
      rw [result_many_of_some hresult hlt] at h
      obtain ⟨⟨others, rest'⟩, hmany, heq⟩ := Option.map_eq_some_iff.1 h
      cases heq
      obtain ⟨us, hus, hcs⟩ := hf hresult
      obtain ⟨tss, htss, hmid⟩ := ih hmany
      exact ⟨us :: tss, .cons hus htss, hcs.append hmid⟩
  | case3 cs a mid misses hhit hle =>
      rw [result_many_of_stuck (by rw [hhit]) hle] at h
      cases h
      exact ⟨[], .nil, .nil⟩

/-- A recognizer takes nothing but what its form derives, and makes the same tree of it. -/
theorem written_of_recognizer (f : Form α) (h : (f.recognizer cs).result = some (a, rest)) :
    ∃ ts, f.Derives a ts ∧ Written ts cs rest := by
  induction f generalizing cs rest with
  | word w => exact ⟨_, rfl, written_of_fixed h⟩
  | name => exact ⟨_, rfl, written_of_name h⟩
  | number => exact ⟨_, rfl, written_of_number h⟩
  | quoted use => exact ⟨_, rfl, written_of_quotedBody use h⟩
  | pair f g ihf ihg =>
      rw [recognizer, result_bind_eq_some] at h
      obtain ⟨x, mid, hx, h⟩ := h
      obtain ⟨y, rest', hy, h⟩ := result_bind_eq_some.1 h
      cases h
      obtain ⟨us, hus, hcs⟩ := ihf hx
      obtain ⟨vs, hvs, hmid⟩ := ihg hy
      exact ⟨us ++ vs, ⟨us, vs, rfl, hus, hvs⟩, hcs.append hmid⟩
  | choice f g ihf ihg =>
      rw [recognizer, result_orElse] at h
      rcases Option.or_eq_some_iff.1 h with h | ⟨_, h⟩
      · obtain ⟨ts, hts, hcs⟩ := ihf h
        exact ⟨ts, .inl hts, hcs⟩
      · obtain ⟨ts, hts, hcs⟩ := ihg h
        exact ⟨ts, .inr hts, hcs⟩
  | optional default f ih =>
      rw [recognizer, result_orDefault, Option.some.injEq] at h
      cases hf : (f.recognizer cs).result with
      | none =>
          rw [hf] at h
          cases h
          exact ⟨[], .inl ⟨rfl, rfl⟩, .nil⟩
      | some taken =>
          rw [hf] at h
          cases h
          obtain ⟨ts, hts, hcs⟩ := ih hf
          exact ⟨ts, .inr hts, hcs⟩
  | many f ih =>
      obtain ⟨tss, htss, hcs⟩ := exists_derives_of_many ih h
      exact ⟨tss.flatten, ⟨tss, htss, rfl⟩, hcs⟩
  | map make f ih =>
      obtain ⟨x, rest', hx, h⟩ := result_bind_eq_some.1 h
      cases h
      obtain ⟨ts, hts, hcs⟩ := ih hx
      exact ⟨ts, ⟨x, rfl, hts⟩, hcs⟩
  | named f ih =>
      rw [recognizer, result_named] at h
      exact ih h

/-! ## What the lookahead says -/

theorem nullable_of_derives_nil {f : Form α} (h : f.Derives a []) : f.nullable = true := by
  induction f with
  | word w => cases h
  | name => cases h
  | number => cases h
  | quoted use => cases h
  | pair f g ihf ihg =>
      obtain ⟨us, vs, hts, hf, hg⟩ := h
      obtain ⟨rfl, rfl⟩ := List.append_eq_nil_iff.1 hts.symm
      rw [nullable, ihf hf, ihg hg]
      rfl
  | choice f g ihf ihg =>
      rw [nullable, Bool.or_eq_true]
      exact h.imp ihf ihg
  | optional default f ih => rfl
  | many f ih => rfl
  | map make f ih =>
      obtain ⟨x, _, hx⟩ := h
      exact ih hx
  | named f ih => exact ih h

theorem lead_mem_first_of_derives {f : Form α} (h : f.Derives a (t :: ts)) :
    t.lead ∈ f.first := by
  induction f generalizing t ts with
  | word w => cases h; exact List.mem_singleton_self _
  | name => cases h; exact List.mem_singleton_self _
  | number => cases h; exact List.mem_singleton_self _
  | quoted use => cases h; exact List.mem_singleton_self _
  | pair f g ihf ihg =>
      obtain ⟨us, vs, hts, hf, hg⟩ := h
      cases us with
      | nil =>
          rw [first, nullable_of_derives_nil hf, if_pos rfl]
          rw [List.nil_append] at hts
          exact List.mem_append_right _ (ihg (hts ▸ hg))
      | cons u us =>
          cases hts
          exact List.mem_append_left _ (ihf hf)
  | choice f g ihf ihg =>
      rcases h with h | h
      · exact List.mem_append_left _ (ihf h)
      · exact List.mem_append_right _ (ihg h)
  | optional default f ih =>
      rcases h with ⟨_, h⟩ | h
      · cases h
      · exact ih h
  | many f ih =>
      obtain ⟨tss, htss, hts⟩ := h
      induction htss with
      | nil => cases hts
      | @cons tree us trees tss hus _ iht =>
          cases us with
          | nil => exact iht hts
          | cons u us =>
              cases hts
              exact ih hus
  | map make f ih =>
      obtain ⟨x, _, hx⟩ := h
      exact ih hx
  | named f ih => exact ih h

/-- The text cannot be taken for a continuation of what is derived. -/
def Stops (f : Form α) (rest : List Char) : Prop :=
  ∀ c ∈ rest.head?, ∀ l ∈ f.extension, l.has c = false

/-- A form that has to take something takes nothing of a text that does not begin like it. -/
theorem recognizer_eq_none {f : Form α} (hnull : f.nullable = false)
    (hfirst : ∀ c ∈ cs.head?, ∀ l ∈ f.first, l.has c = false) :
    (f.recognizer cs).result = none := by
  apply Option.eq_none_iff_forall_ne_some.2
  intro ⟨a, rest⟩ h
  obtain ⟨ts, hts, hcs⟩ := written_of_recognizer f h
  cases ts with
  | nil =>
      rw [nullable_of_derives_nil hts] at hnull
      cases hnull
  | cons t ts =>
      obtain ⟨c, cs', rfl, hc⟩ := hcs.exists_head
      rw [hfirst c rfl t.lead (lead_mem_first_of_derives hts)] at hc
      cases hc

/-- Classes that have nothing in common with the beginnings of what is derived do not have the
first character of its text. -/
private theorem has_eq_false_of_derives {g : Form β} {ls : List Lead}
    (hapart : Lead.allApart ls g.first = true) (hg : g.Derives b (t :: ts))
    (hcs : Written (t :: ts) cs rest) : ∀ c ∈ cs.head?, ∀ l ∈ ls, l.has c = false := by
  obtain ⟨c, cs', rfl, hc⟩ := hcs.exists_head
  rintro _ ⟨⟩ l hl
  exact Lead.has_eq_false_of_allApart hapart hl (lead_mem_first_of_derives hg) hc

/-! ## What is derived is recognized -/

/-- What follows a part of a determinate sequence or repetition does not continue that part. -/
private theorem stops_of_apart {f : Form α} {g : Form β}
    (hapart : Lead.allApart f.extension g.first = true) (hg : g.Derives b ts)
    (hmid : Written ts mid rest) (hrest : ts = [] → f.Stops rest) : f.Stops mid := by
  cases ts with
  | nil =>
      rw [Written.nil_iff.1 hmid]
      exact hrest rfl
  | cons t ts => exact has_eq_false_of_derives hapart hg hmid

private theorem many_of_derives {f : Form α} {as : List α} {tss : List (List Token)}
    (hnull : f.nullable = false) (hapart : Lead.allApart f.extension f.first = true)
    (hf : ∀ {a ts cs rest}, f.Derives a ts → Written ts cs rest → Settled rest → f.Stops rest →
      (f.recognizer cs).result = some (a, rest))
    (h : List.Forall₂ f.Derives as tss) (hcs : Written tss.flatten cs rest)
    (hrest : Settled rest) (hstop : (many f).Stops rest) :
    (Recognizer.many f.recognizer cs).result = some (as, rest) := by
  induction h generalizing cs with
  | nil =>
      rw [Written.nil_iff.1 hcs]
      refine result_many_of_none (recognizer_eq_none hnull fun c hc l hl => ?_)
      exact hstop c hc l (List.mem_append_left _ hl)
  | @cons a us as tss hus htss ih =>
      obtain ⟨mid, hcs, hmid⟩ := Written.append_iff.1 hcs
      have hne : us ≠ [] := by
        rintro rfl
        rw [nullable_of_derives_nil hus] at hnull
        cases hnull
      have hstopMid : f.Stops mid := by
        refine stops_of_apart (g := many f) hapart ⟨tss, htss, rfl⟩ hmid fun _ c hc l hl => ?_
        exact hstop c hc l (List.mem_append_right _ hl)
      have hhit := hf hus hcs (hmid.settled hrest) hstopMid
      rw [result_many_of_some hhit (hcs.length_lt hne), ih hmid]
      rfl

/-- A recognizer takes what its form derives whole, if the form is determinate and the text after it
is not taken for its continuation. -/
theorem recognizer_of_derives (f : Form α) (hf : f.determinate = true) (h : f.Derives a ts)
    (hcs : Written ts cs rest) (hrest : Settled rest) (hstop : f.Stops rest) :
    (f.recognizer cs).result = some (a, rest) := by
  induction f generalizing ts cs rest with
  | word w =>
      cases h
      exact fixed_of_written hcs hrest
  | name =>
      cases h
      exact name_of_written hcs hrest fun c hc => hstop c hc .nameChar (List.mem_singleton_self _)
  | number =>
      cases h
      exact number_of_written hcs hrest fun c hc => hstop c hc .digit (List.mem_singleton_self _)
  | quoted use =>
      cases h
      exact quotedBody_of_written hcs hrest
  | @pair α β f g ihf ihg =>
      obtain ⟨us, vs, rfl, hus, hvs⟩ := h
      obtain ⟨mid, hcs, hmid⟩ := Written.append_iff.1 hcs
      simp only [determinate, Bool.and_eq_true] at hf
      have hstopMid : f.Stops mid := by
        refine stops_of_apart hf.2 hvs hmid fun hnil c hc l hl => hstop c hc l ?_
        subst hnil
        rw [extension, nullable_of_derives_nil hvs, if_pos rfl]
        exact List.mem_append_right _ hl
      have hx := ihf hf.1.1 hus hcs (hmid.settled hrest) hstopMid
      have hy := ihg hf.1.2 hvs hmid hrest fun c hc l hl =>
        hstop c hc l (List.mem_append_left _ hl)
      exact result_bind_eq_some.2 ⟨_, _, hx, result_bind_eq_some.2 ⟨_, _, hy, rfl⟩⟩
  | choice f g ihf ihg =>
      simp only [determinate, Bool.and_eq_true, Bool.not_eq_true'] at hf
      obtain ⟨⟨⟨⟨hf, hg⟩, hapart⟩, hnullf⟩, hnullg⟩ := hf
      rw [recognizer, result_orElse]
      rcases h with h | h
      · rw [ihf hf h hcs hrest fun c hc l hl => hstop c hc l (List.mem_append_left _ hl)]
        rfl
      · cases ts with
        | nil =>
            rw [nullable_of_derives_nil h] at hnullg
            cases hnullg
        | cons t ts =>
            rw [recognizer_eq_none hnullf (has_eq_false_of_derives hapart h hcs), Option.none_or]
            exact ihg hg h hcs hrest fun c hc l hl => hstop c hc l (List.mem_append_right _ hl)
  | optional default f ih =>
      simp only [determinate, Bool.and_eq_true, Bool.not_eq_true'] at hf
      rw [recognizer, result_orDefault]
      rcases h with ⟨rfl, rfl⟩ | h
      · have hmiss : (f.recognizer rest).result = none :=
          recognizer_eq_none hf.2 fun c hc l hl => hstop c hc l (List.mem_append_left _ hl)
        rw [Written.nil_iff.1 hcs, hmiss]
        rfl
      · rw [ih hf.1 h hcs hrest fun c hc l hl => hstop c hc l (List.mem_append_right _ hl)]
        rfl
  | many f ih =>
      simp only [determinate, Bool.and_eq_true, Bool.not_eq_true'] at hf
      obtain ⟨tss, htss, rfl⟩ := h
      exact many_of_derives hf.1.2 hf.2 (ih hf.1.1) htss hcs hrest hstop
  | map make f ih =>
      obtain ⟨x, rfl, hx⟩ := h
      exact result_bind_eq_some.2 ⟨_, _, ih hf hx hcs hrest hstop, rfl⟩
  | named f ih =>
      rw [recognizer, result_named]
      exact ih hf h hcs hrest hstop

end Form

end DeviceMessages.Definition
