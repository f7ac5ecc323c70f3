import DeviceMessages.Proofs.Message.Classification
import DeviceMessages.Proofs.Message.Extension
import Mathlib.Data.List.Perm.Basic

/-!
# The order of kinds, rules and validators

The kinds of a scanner, the rules of a kind and the validators of a rule are written in some order,
and a scanner looks at them in that order. What it answers does not depend on it: validators only
have to accept a value all together, rules apply to a message or not each by itself, and a scanner
looks at all of its kinds even after one of them has matched. Only the fields and the names that an
answer lists come in the order of the scanner.

All three levels can be put in another order at once. `Rearranged` says when the members of two
lists correspond one to one by a relation, and the relation at one level is built from that of the
level below: rules correspond by `Rule.Rearranges`, kinds by `MessageKind.Rearranges`. What a scan
finds is then rearranged in the same sense (`Rearranges.allMatches`), and how many matches there are
decides about the answer.
-/

namespace DeviceMessages

/-! ## Lists in another order -/

/-- The members of two lists correspond one to one, in whatever order. -/
def Rearranged {α β : Type} (R : α → β → Prop) (as : List α) (bs : List β) : Prop :=
  ∃ cs, List.Forall₂ R as cs ∧ cs.Perm bs

namespace Rearranged

variable {α β γ δ : Type} {R : α → β → Prop} {as : List α} {bs : List β}

theorem length_eq (h : Rearranged R as bs) : as.length = bs.length := by
  obtain ⟨cs, hcs, hperm⟩ := h
  rw [hcs.length_eq, hperm.length_eq]

theorem exists_eq_singleton {a : α} (h : Rearranged R [a] bs) : ∃ b, bs = [b] ∧ R a b := by
  obtain ⟨cs, hcs, hperm⟩ := h
  obtain ⟨b, bs', hab, hnil, rfl⟩ := List.forall₂_cons_left_iff.1 hcs
  rw [List.forall₂_nil_left_iff.1 hnil] at hperm
  exact ⟨b, List.perm_singleton.1 hperm.symm, hab⟩

theorem exists_of_mem {b : β} (h : Rearranged R as bs) (hb : b ∈ bs) : ∃ a ∈ as, R a b := by
  obtain ⟨cs, hcs, hperm⟩ := h
  have hflip : List.Forall₂ (flip R) cs as := List.Forall₂.flip hcs
  exact exists_mem_of_forall₂ hflip (hperm.mem_iff.2 hb)

/-- What corresponding members share, the lists have in common. -/
theorem perm_map {f : α → γ} {g : β → γ} (h : Rearranged R as bs)
    (hkept : ∀ a b, R a b → g b = f a) : (as.map f).Perm (bs.map g) := by
  obtain ⟨cs, hcs, hperm⟩ := h
  rw [← map_eq_map_of_forall₂ hcs hkept]
  exact hperm.map g

theorem all_eq {p : α → Bool} {q : β → Bool} (h : Rearranged R as bs)
    (hkept : ∀ a b, R a b → q b = p a) : bs.all q = as.all p := by
  have hperm := h.perm_map hkept
  have hall : (as.map p).all id = (bs.map q).all id := hperm.all_eq
  rw [List.all_map, List.all_map] at hall
  exact hall.symm

theorem filterMap {S : γ → δ → Prop} {f : α → Option γ} {g : β → Option δ}
    (h : Rearranged R as bs) (hkept : ∀ a b, R a b → Option.Rel S (f a) (g b)) :
    Rearranged S (as.filterMap f) (bs.filterMap g) := by
  obtain ⟨cs, hcs, hperm⟩ := h
  exact ⟨cs.filterMap g, List.rel_filterMap (fun {a b} hab => hkept a b hab) hcs,
    hperm.filterMap g⟩

/-- What is listed beside the members of one list can be listed beside those of the other. -/
theorem exists_forall₂ {S : α → γ → Prop} {T : β → γ → Prop} {xs : List γ}
    (h : Rearranged R as bs) (hkept : ∀ a b x, R a b → S a x → T b x)
    (hxs : List.Forall₂ S as xs) : ∃ ys, List.Forall₂ T bs ys ∧ xs.Perm ys := by
  obtain ⟨cs, hcs, hperm⟩ := h
  have hcs' : List.Forall₂ T cs xs := by
    clear hperm
    induction hcs generalizing xs with
    | nil =>
        cases hxs
        exact .nil
    | cons hab _ ih =>
        cases hxs with
        | cons hax hrest => exact .cons (hkept _ _ _ hab hax) (ih hrest)
  obtain ⟨ys, hys, hxs'⟩ := List.perm_comp_forall₂ hperm.symm hcs'
  exact ⟨ys, hys, hxs'.symm⟩

end Rearranged

/-! ## Values by name -/

theorem lookup_eq_of_perm {fields fields' : List FieldValue} (hperm : fields.Perm fields')
    (h : (fields.map (·.1)).Nodup) (name : String) : fields'.lookup name = fields.lookup name := by
  have h' : (fields'.map (·.1)).Nodup := (hperm.map _).nodup_iff.1 h
  refine Option.ext fun value => ?_
  rw [lookup_eq_some_iff_mem h', lookup_eq_some_iff_mem h, hperm.mem_iff]

/-! ## Rules -/

/-- The same rule with its validators in another order. -/
structure Rule.Rearranges (r r' : Rule) : Prop where
  name : r'.name = r.name
  location : r'.location = r.location
  validators : r.validators.Perm r'.validators

/-- A value that is not text is refused if there are validators, so their number counts as well. -/
theorem Rule.Rearranges.accepts_eq {r r' : Rule} (h : r.Rearranges r') (value : Bytes) :
    r'.accepts value = r.accepts value := by
  unfold Rule.accepts
  rw [h.validators.isEmpty_eq]
  cases Text.ofUtf8? value with
  | none => rfl
  | some text =>
      show (r'.validators.isEmpty || r'.validators.all _) =
        (r'.validators.isEmpty || r.validators.all _)
      rw [h.validators.all_eq]

theorem Rule.Rearranges.apply_eq {r r' : Rule} (h : r.Rearranges r') (input : Bytes) :
    r'.apply input = r.apply input := by
  have haccepts : r'.accepts = r.accepts := funext h.accepts_eq
  rw [Rule.apply, Rule.apply, h.location, haccepts]

/-! ## Kinds of messages -/

/-- The same kind with its rules in another order, and with rearranged rules. -/
structure MessageKind.Rearranges (kind kind' : MessageKind) : Prop where
  name : kind'.name = kind.name
  rules : Rearranged Rule.Rearranges kind.rules kind'.rules

namespace MessageKind

variable {kind kind' : MessageKind}

theorem Rearranges.extracts (h : kind.Rearranges kind') {input : Bytes} {fields : List FieldValue}
    (hfields : kind.Extracts input fields) :
    ∃ fields', kind'.Extracts input fields' ∧ fields.Perm fields' := by
  refine h.rules.exists_forall₂ ?_ hfields
  rintro r r' f hr ⟨hname, happly⟩
  exact ⟨hname.trans hr.name.symm, by rw [hr.apply_eq, happly]⟩

theorem Rearranges.applies_eq (h : kind.Rearranges kind') (input : Bytes) :
    kind'.applies input = kind.applies input := by
  refine h.rules.all_eq fun r r' hr => ?_
  rw [hr.apply_eq]

theorem Rearranges.isMade_iff (h : kind.Rearranges kind') : kind'.IsMade ↔ kind.IsMade := by
  have hnames : (kind.rules.map (·.name)).Perm (kind'.rules.map (·.name)) :=
    h.rules.perm_map fun _ _ hr => hr.name
  rw [MessageKind.isMade_iff, MessageKind.isMade_iff, hnames.nodup_iff]

end MessageKind

/-- The same name, and the same fields in another order. -/
def Match.SameFields (m m' : Match) : Prop :=
  m'.name = m.name ∧ m.fields.Perm m'.fields

theorem MessageKind.Rearranges.match? {kind kind' : MessageKind} (h : kind.Rearranges kind')
    (input : Bytes) : Option.Rel Match.SameFields (kind.match? input) (kind'.match? input) := by
  cases hmatch : kind.match? input with
  | none =>
      have happlies : kind.applies input = false := by
        by_contra htrue
        obtain ⟨fields, hsome, -⟩ := kind.match?_of_applies (eq_true_of_ne_false htrue)
        rw [hmatch] at hsome
        cases hsome
      rw [kind'.match?_of_not_applies (h.applies_eq input ▸ happlies)]
      exact .none
  | some m =>
      obtain ⟨hname, hfields⟩ := MessageKind.match?_eq_some_iff.1 hmatch
      obtain ⟨fields', hfields', hperm⟩ := h.extracts hfields
      have hmatch' : kind'.match? input = some ⟨kind'.name, fields'⟩ :=
        MessageKind.match?_eq_some_iff.2 ⟨rfl, hfields'⟩
      rw [hmatch']
      exact .some ⟨h.name.trans hname.symm, hperm⟩

/-! ## Scanners -/

/-- The same scanner with its kinds in another order, and with rearranged kinds. -/
structure Scanner.Rearranges (s s' : Scanner) : Prop where
  name : s'.name = s.name
  kinds : Rearranged MessageKind.Rearranges s.kinds s'.kinds

/-- Both answers name one kind and have the same fields in some order, in which the same value is
found by each name, or both are that there is no match, or both list the same kinds. -/
inductive SameAnswer : Except ScanError Match → Except ScanError Match → Prop
  | matched {m m' : Match} (hname : m'.name = m.name) (hfields : m.fields.Perm m'.fields)
      (hget : ∀ field, m'.get? field = m.get? field) : SameAnswer (.ok m) (.ok m')
  | noMatch : SameAnswer (.error .noMatch) (.error .noMatch)
  | ambiguous {names names' : List String} (hnames : names.Perm names') :
      SameAnswer (.error (.ambiguous names)) (.error (.ambiguous names'))

/-- What an answer lists is in the order of the scanner: fields in the order of the rules of their
kind, and names in the order of the kinds. -/
structure Scanner.AnswersInOrder (s : Scanner) (input : Bytes) : Prop where
  fields : ∀ m, s.scan input = .ok m → ∃ kind ∈ s.kinds, kind.name = m.name ∧
    m.fields.map (·.1) = kind.rules.map (·.name)
  names : ∀ names, s.scan input = .error (.ambiguous names) →
    names.Sublist (s.kinds.map (·.name))

namespace Scanner

variable {s s' : Scanner} {input : Bytes}

/-- Without a sink nothing is refused by one. -/
theorem scan_ne_rejected (name : String) : s.scan input ≠ .error (.rejected name) := by
  intro h
  unfold scan at h
  split at h <;> cases h

theorem exists_kind_of_scan_eq_ok {m : Match} (h : s.scan input = .ok m) :
    ∃ kind ∈ s.kinds, m.name = kind.name ∧ kind.Extracts input m.fields := by
  rw [scan_eq_ok_iff] at h
  have hmem : m ∈ s.allMatches input := by
    rw [h]
    exact List.mem_singleton_self m
  obtain ⟨kind, hkind, hmatch⟩ := List.mem_filterMap.1 hmem
  exact ⟨kind, hkind, MessageKind.match?_eq_some_iff.1 hmatch⟩

theorem answersInOrder (s : Scanner) (input : Bytes) : s.AnswersInOrder input where
  fields m hm := by
    obtain ⟨kind, hkind, hname, hfields⟩ := exists_kind_of_scan_eq_ok hm
    exact ⟨kind, hkind, hname.symm, hfields.map_name⟩
  names names hnames := by
    obtain ⟨-, rfl⟩ := scan_eq_ambiguous_iff.1 hnames
    rw [map_name_allMatches]
    exact List.filter_sublist.map _

theorem Rearranges.isMade (h : s.Rearranges s') (hs : s.IsMade) : s'.IsMade := by
  rw [isMade_iff] at hs ⊢
  obtain ⟨hnonempty, hnodup, hkinds⟩ := hs
  have hnames : (s.kinds.map (·.name)).Perm (s'.kinds.map (·.name)) :=
    h.kinds.perm_map fun _ _ hkind => hkind.name
  refine ⟨?_, hnames.nodup_iff.1 hnodup, fun kind' hkind' => ?_⟩
  · rw [← List.length_pos_iff, ← h.kinds.length_eq, List.length_pos_iff]
    exact hnonempty
  · obtain ⟨kind, hkind, hrearranges⟩ := h.kinds.exists_of_mem hkind'
    exact hrearranges.isMade_iff.2 (hkinds kind hkind)

theorem Rearranges.allMatches (h : s.Rearranges s') (input : Bytes) :
    Rearranged Match.SameFields (s.allMatches input) (s'.allMatches input) :=
  h.kinds.filterMap fun _ _ hkind => hkind.match? input

theorem Rearranges.sameAnswer (h : s.Rearranges s') (hs : s.IsMade) (input : Bytes) :
    SameAnswer (s.scan input) (s'.scan input) := by
  have hall := h.allMatches input
  have hnames : ((s.allMatches input).map (·.name)).Perm ((s'.allMatches input).map (·.name)) :=
    hall.perm_map fun _ _ hm => hm.1
  have hlength := hall.length_eq
  cases hscan : s.scan input with
  | ok m =>
      rw [scan_eq_ok_iff.1 hscan] at hall
      obtain ⟨m', hone, hname, hfields⟩ := hall.exists_eq_singleton
      rw [scan_eq_ok_iff.2 hone]
      obtain ⟨kind, hkind, -, hextracts⟩ := exists_kind_of_scan_eq_ok hscan
      have hnodup : (m.fields.map (·.1)).Nodup := by
        rw [hextracts.map_name]
        exact MessageKind.isMade_iff.1 (hs.kinds kind hkind)
      exact .matched hname hfields (lookup_eq_of_perm hfields hnodup)
  | error e =>
      cases e with
      | noMatch =>
          rw [scan_eq_noMatch_iff.1 hscan] at hlength
          rw [scan_eq_noMatch_iff.2 (List.length_eq_zero_iff.1 hlength.symm)]
          exact .noMatch
      | ambiguous names =>
          obtain ⟨hmany, rfl⟩ := scan_eq_ambiguous_iff.1 hscan
          rw [scan_eq_ambiguous_iff.2 ⟨hlength ▸ hmany, rfl⟩]
          exact .ambiguous hnames
      | rejected name => exact absurd hscan (scan_ne_rejected name)

end Scanner

/-- The order of the validators of a rule, of the rules of a kind and of the kinds of a scanner does
not matter for what can be made, nor for what a scanner answers, but for the order in which an
answer lists fields and names. -/
theorem rearranging_keeps_answers :
    (∀ (name : String) (rules rules' : List Rule), Rearranged Rule.Rearranges rules rules' →
      ((∃ kind, MessageKind.make name rules = .ok kind) ↔
        ∃ kind, MessageKind.make name rules' = .ok kind)) ∧
    (∀ (name : String) (kinds kinds' : List MessageKind),
      Rearranged MessageKind.Rearranges kinds kinds' →
      ((∃ s, Scanner.make name kinds = .ok s) ↔ ∃ s, Scanner.make name kinds' = .ok s)) ∧
    ∀ (s s' : Scanner) (input : Bytes), s.IsMade → s.Rearranges s' →
      s'.IsMade ∧ SameAnswer (s.scan input) (s'.scan input) ∧ s'.AnswersInOrder input := by
  refine ⟨?_, ?_, ?_⟩
  · intro name rules rules' h
    have hnames : (rules.map (·.name)).Perm (rules'.map (·.name)) :=
      h.perm_map fun _ _ hr => hr.name
    simp only [MessageKind.make_eq_ok_iff, exists_and_left, exists_eq, and_true, hnames.nodup_iff]
  · intro name kinds kinds' h
    have hnames : (kinds.map (·.name)).Perm (kinds'.map (·.name)) :=
      h.perm_map fun _ _ hkind => hkind.name
    have hnil : kinds = [] ↔ kinds' = [] := by
      rw [← List.length_eq_zero_iff, h.length_eq, List.length_eq_zero_iff]
    simp only [Scanner.make_eq_ok_iff, exists_and_left, exists_eq, and_true, hnames.nodup_iff,
      ne_eq, hnil]
  · intro s s' input hs h
    exact ⟨h.isMade hs, h.sameAnswer hs input, s'.answersInOrder input⟩

/-- A number of two digits but not zero, and a text in angle brackets. -/
def MessageKind.label : MessageKind :=
  ⟨"label",
    [⟨"id", .offset 0 2, [⟨fun text => text.toList.all Char.isDigit⟩, ⟨(· != "00")⟩]⟩,
      ⟨"text", .between [0x3C] [0x3E], []⟩]⟩

/-- A label with its text before its number, which is refused first if it is zero. -/
def MessageKind.labelTextFirst : MessageKind :=
  ⟨"label",
    [⟨"text", .between [0x3C] [0x3E], []⟩,
      ⟨"id", .offset 0 2, [⟨(· != "00")⟩, ⟨fun text => text.toList.all Char.isDigit⟩]⟩]⟩

/-- Labels, and what stands between a colon and a semicolon. -/
def Scanner.labelOrStatus : Scanner :=
  ⟨"replies", [.label, ⟨"status", [⟨"code", .between [0x3A] [0x3B], []⟩]⟩]⟩

@[inherit_doc Scanner.labelOrStatus]
def Scanner.statusOrLabel : Scanner :=
  ⟨"replies", [⟨"status", [⟨"code", .between [0x3A] [0x3B], []⟩]⟩, .labelTextFirst]⟩

theorem MessageKind.label_rearranges : MessageKind.label.Rearranges .labelTextFirst where
  name := rfl
  rules := ⟨[⟨"id", .offset 0 2, [⟨(· != "00")⟩, ⟨fun text => text.toList.all Char.isDigit⟩]⟩,
      ⟨"text", .between [0x3C] [0x3E], []⟩],
    .cons ⟨rfl, rfl, .swap ..⟩ (.cons ⟨rfl, rfl, .refl _⟩ .nil), .swap ..⟩

theorem Scanner.labelOrStatus_rearranges : Scanner.labelOrStatus.Rearranges .statusOrLabel where
  name := rfl
  kinds := ⟨[.labelTextFirst, ⟨"status", [⟨"code", .between [0x3A] [0x3B], []⟩]⟩],
    .cons MessageKind.label_rearranges
      (.cons ⟨rfl, _, .cons ⟨rfl, rfl, .refl _⟩ .nil, .refl _⟩ .nil), .swap ..⟩

/-- A label is read with its fields in either order. What is a label and a status is both in either
scanner. -/
theorem rearranging_keeps_labelOrStatus :
    ((∃ kind, MessageKind.make "label" MessageKind.label.rules = .ok kind) ∧
      ∃ kind, MessageKind.make "label" MessageKind.labelTextFirst.rules = .ok kind) ∧
    ((∃ s, Scanner.make "replies" Scanner.labelOrStatus.kinds = .ok s) ∧
      ∃ s, Scanner.make "replies" Scanner.statusOrLabel.kinds = .ok s) ∧
    Scanner.labelOrStatus.IsMade ∧ Scanner.labelOrStatus.Rearranges .statusOrLabel ∧
    Scanner.statusOrLabel.IsMade ∧
    SameAnswer (.ok ⟨"label", [("id", [0x30, 0x37]), ("text", [0x6F])]⟩)
      (Scanner.statusOrLabel.scan [0x30, 0x37, 0x3C, 0x6F, 0x3E]) ∧
    SameAnswer (.error (.ambiguous ["label", "status"]))
      (Scanner.statusOrLabel.scan [0x30, 0x37, 0x3C, 0x3A, 0x3B, 0x3E]) := by
  have hrules := rearranging_keeps_answers.1 "label" _ _ MessageKind.label_rearranges.rules
  have hkinds := rearranging_keeps_answers.2.1 "replies" _ _
    Scanner.labelOrStatus_rearranges.kinds
  have hkind : ∃ kind, MessageKind.make "label" MessageKind.label.rules = .ok kind := ⟨_, rfl⟩
  have hscanner : ∃ s, Scanner.make "replies" Scanner.labelOrStatus.kinds = .ok s := ⟨_, rfl⟩
  have hmade : Scanner.labelOrStatus.IsMade :=
    ⟨rfl, by simp [Scanner.labelOrStatus, MessageKind.isMade_iff, MessageKind.label]⟩
  have hone : Scanner.labelOrStatus.scan [0x30, 0x37, 0x3C, 0x6F, 0x3E] =
      .ok ⟨"label", [("id", [0x30, 0x37]), ("text", [0x6F])]⟩ := by decide +kernel
  have hboth : Scanner.labelOrStatus.scan [0x30, 0x37, 0x3C, 0x3A, 0x3B, 0x3E] =
      .error (.ambiguous ["label", "status"]) := by decide +kernel
  have hanswer := fun input => rearranging_keeps_answers.2.2 _ _ input hmade
    Scanner.labelOrStatus_rearranges
  exact ⟨⟨hkind, hrules.1 hkind⟩, ⟨hscanner, hkinds.1 hscanner⟩, hmade,
    Scanner.labelOrStatus_rearranges, (hanswer []).1, hone ▸ (hanswer _).2.1,
    hboth ▸ (hanswer _).2.1⟩

end DeviceMessages
