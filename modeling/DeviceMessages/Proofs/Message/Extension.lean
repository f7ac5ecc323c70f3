import DeviceMessages.Message.Scanner

/-!
# More bytes at the end of a message

A value that a rule extracts from a message stays where it is when the message goes on. An offset
counts from the front, and the first place where a delimiter stands is still the first: a delimiter
that could begin before that place would have to end before it too, within the bytes that were there
already (`cutAt_append`). So a rule that applies goes on to apply with the same value, and a kind
that a message is of remains one of its kinds, with the same fields.

What a scanner answers follows from the list of all matches, which only grows
(`allMatches_sublist`). Growing can turn the only match into one of several, but it never changes
or loses a match: `scan_append`.
-/

namespace DeviceMessages

/-! ## One rule -/

namespace Location

theorem length_le_of_cutAt {part bytes before after : Bytes}
    (h : cutAt part bytes = some (before, after)) : part.length ≤ bytes.length := by
  rw [append_of_cutAt h, List.length_append, List.length_append]
  omega

/-- More bytes do not make a part a prefix of bytes that are long enough for it. -/
private theorem isPrefixOf_append_eq_false {part bytes : Bytes}
    (h : part.isPrefixOf bytes = false) (hle : part.length ≤ bytes.length) (more : Bytes) :
    part.isPrefixOf (bytes ++ more) = false := by
  rw [← Bool.not_eq_true, List.isPrefixOf_iff_prefix] at h ⊢
  intro hprefix
  exact h (List.prefix_of_prefix_length_le hprefix (List.prefix_append bytes more) hle)

/-- The first place where a part stands is the first place of it in a longer message as well. -/
theorem cutAt_append {part bytes before after : Bytes}
    (h : cutAt part bytes = some (before, after)) (more : Bytes) :
    cutAt part (bytes ++ more) = some (before, after ++ more) := by
  induction bytes generalizing before with
  | nil =>
      unfold cutAt at h
      split at h
      · next hprefix =>
          cases h
          have hpart : part = [] := by simpa using hprefix
          subst hpart
          cases more <;> rfl
      · cases h
  | cons b bytes ih =>
      have hle : part.length ≤ (b :: bytes).length := length_le_of_cutAt h
      unfold cutAt at h ⊢
      by_cases hprefix : part.isPrefixOf (b :: bytes) = true
      · have hmore : part.isPrefixOf ((b :: bytes) ++ more) = true := by
          rw [List.isPrefixOf_iff_prefix] at hprefix ⊢
          exact hprefix.trans (List.prefix_append _ _)
        rw [if_pos hprefix] at h
        rw [if_pos hmore, List.drop_append_of_le_length hle]
        cases h
        rfl
      · have hmore : ¬ part.isPrefixOf ((b :: bytes) ++ more) = true := by
          rw [Bool.not_eq_true] at hprefix ⊢
          exact isPrefixOf_append_eq_false hprefix hle more
        rw [if_neg hprefix] at h
        obtain ⟨⟨before', after'⟩, hcut, heq⟩ := Option.map_eq_some_iff.1 h
        cases heq
        rw [if_neg hmore]
        simp [ih hcut]

theorem extract_append {location : Location} {input value : Bytes}
    (h : location.extract input = some value) (more : Bytes) :
    location.extract (input ++ more) = some value := by
  cases location with
  | offset position length =>
      simp only [extract, Option.ite_none_right_eq_some, Option.some.injEq] at h ⊢
      obtain ⟨hle, rfl⟩ := h
      have hdrop : length ≤ (input.drop position).length := by
        rw [List.length_drop]
        omega
      refine ⟨by rw [List.length_append]; omega, ?_⟩
      rw [List.drop_append_of_le_length (by omega), List.take_append_of_le_length hdrop]
  | between opening closing =>
      simp only [extract, Option.bind_eq_bind, Option.bind_eq_some_iff] at h ⊢
      obtain ⟨⟨_, rest⟩, hopening, ⟨_, _⟩, hclosing, hvalue⟩ := h
      exact ⟨_, cutAt_append hopening more, _, cutAt_append hclosing more, hvalue⟩

end Location

theorem Rule.apply_append {r : Rule} {input value : Bytes} (h : r.apply input = some value)
    (more : Bytes) : r.apply (input ++ more) = some value := by
  unfold Rule.apply at h ⊢
  rw [Option.filter_eq_some_iff] at h ⊢
  exact ⟨Location.extract_append h.1 more, h.2⟩

/-! ## One kind -/

namespace MessageKind

theorem extractFields_append {rules : List Rule} {input : Bytes} {fields : List FieldValue}
    (h : extractFields input rules = some fields) (more : Bytes) :
    extractFields (input ++ more) rules = some fields := by
  induction rules generalizing fields with
  | nil => exact h
  | cons r rules ih =>
      simp only [extractFields, Option.bind_eq_bind, Option.bind_eq_some_iff] at h ⊢
      obtain ⟨value, hvalue, others, hothers, hfields⟩ := h
      exact ⟨value, Rule.apply_append hvalue more, others, ih hothers, hfields⟩

/-- A message that is of a kind is of that kind with the same fields when it goes on. -/
theorem match?_append {kind : MessageKind} {input : Bytes} {m : Match}
    (h : kind.match? input = some m) (more : Bytes) : kind.match? (input ++ more) = some m := by
  unfold match? at h ⊢
  obtain ⟨fields, hfields, hm⟩ := Option.map_eq_some_iff.1 h
  rw [extractFields_append hfields more, Option.map_some, hm]

end MessageKind

/-! ## All kinds of a scanner -/

namespace Scanner

variable {s : Scanner} {input : Bytes}

theorem scan_eq_ok_iff {m : Match} : s.scan input = .ok m ↔ s.allMatches input = [m] := by
  unfold scan
  split <;> simp_all

theorem scan_eq_noMatch_iff : s.scan input = .error .noMatch ↔ s.allMatches input = [] := by
  unfold scan
  split <;> simp_all

theorem scan_eq_ambiguous_iff {names : List String} :
    s.scan input = .error (.ambiguous names) ↔
      2 ≤ (s.allMatches input).length ∧ names = (s.allMatches input).map (·.name) := by
  unfold scan
  split
  · simp_all
  · simp_all
  · next ms hnone hone =>
      have hmany : 2 ≤ (s.allMatches input).length := by
        cases hms : s.allMatches input with
        | nil => exact absurd hms hnone
        | cons m ms =>
            cases ms with
            | nil => exact absurd hms (hone m)
            | cons _ _ => simp
      simp [hmany, eq_comm]

/-- The matches of a message are among those of a longer one, in the same order. -/
theorem allMatches_sublist (s : Scanner) (input more : Bytes) :
    (s.allMatches input).Sublist (s.allMatches (input ++ more)) := by
  unfold allMatches
  induction s.kinds with
  | nil => exact .slnil
  | cons kind kinds ih =>
      cases hmatch : kind.match? input with
      | none =>
          cases hmore : kind.match? (input ++ more) with
          | none => simpa only [List.filterMap_cons, hmatch, hmore] using ih
          | some m => simpa only [List.filterMap_cons, hmatch, hmore] using ih.cons m
      | some m =>
          have hmore := MessageKind.match?_append hmatch more
          simpa only [List.filterMap_cons, hmatch, hmore] using ih.cons_cons m

/-- When a message goes on, each kind that it is of is still one of its kinds, with the same fields.
So the only match stays the only one or becomes one of several; of several matches none is lost and
their order stays; and a longer message without a match had none before. -/
theorem scan_append (s : Scanner) (x y : Bytes) :
    (∀ (kind : MessageKind) (m : Match), kind.match? x = some m →
      kind.match? (x ++ y) = some m) ∧
    (∀ m, s.scan x = .ok m → s.scan (x ++ y) = .ok m ∨
      ∃ names, s.scan (x ++ y) = .error (.ambiguous names) ∧ m.name ∈ names) ∧
    (∀ names, s.scan x = .error (.ambiguous names) →
      ∃ names', s.scan (x ++ y) = .error (.ambiguous names') ∧ names.Sublist names') ∧
    (s.scan (x ++ y) = .error .noMatch → s.scan x = .error .noMatch) := by
  have hsublist : (s.allMatches x).Sublist (s.allMatches (x ++ y)) := s.allMatches_sublist x y
  refine ⟨fun kind m hmatch => MessageKind.match?_append hmatch y, ?_, ?_, ?_⟩
  · intro m hm
    rw [scan_eq_ok_iff] at hm
    rw [hm] at hsublist
    have hmem : m ∈ s.allMatches (x ++ y) := List.singleton_sublist.1 hsublist
    by_cases hone : (s.allMatches (x ++ y)).length = 1
    · left
      obtain ⟨m', hm'⟩ := List.length_eq_one_iff.1 hone
      rw [hm', List.mem_singleton] at hmem
      rw [scan_eq_ok_iff, hm', hmem]
    · right
      have hpos : 0 < (s.allMatches (x ++ y)).length := List.length_pos_of_mem hmem
      exact ⟨_, scan_eq_ambiguous_iff.2 ⟨by omega, rfl⟩, List.mem_map_of_mem hmem⟩
  · intro names hnames
    rw [scan_eq_ambiguous_iff] at hnames
    have hle := hsublist.length_le
    refine ⟨_, scan_eq_ambiguous_iff.2 ⟨by omega, rfl⟩, ?_⟩
    rw [hnames.2]
    exact hsublist.map _
  · intro hnone
    rw [scan_eq_noMatch_iff] at hnone ⊢
    rw [hnone] at hsublist
    exact List.sublist_nil.1 hsublist

/-- Two kinds of messages, one that ends with a line break and one that begins with two bytes. -/
def lineOrPair : Scanner :=
  ⟨"input", [⟨"line", [⟨"text", .between [] [0x0D, 0x0A], []⟩]⟩,
    ⟨"pair", [⟨"first", .offset 0 1, []⟩, ⟨"second", .offset 1 1, []⟩]⟩]⟩

/-- The line break is complete only with its second byte, which makes a line of what was only a pair
before. It stays a line and a pair when more follows. One byte is neither, and so no bytes at all
are neither. -/
theorem scan_append_lineFeed :
    (lineOrPair.scan [0x41, 0x0D] = .ok ⟨"pair", [("first", [0x41]), ("second", [0x0D])]⟩ ∧
      ∃ names, lineOrPair.scan ([0x41, 0x0D] ++ [0x0A]) = .error (.ambiguous names) ∧
        "pair" ∈ names) ∧
    (lineOrPair.scan [0x41, 0x0D, 0x0A] = .error (.ambiguous ["line", "pair"]) ∧
      ∃ names, lineOrPair.scan ([0x41, 0x0D, 0x0A] ++ [0x42]) = .error (.ambiguous names) ∧
        ["line", "pair"].Sublist names) ∧
    (lineOrPair.scan ([] ++ [0x41]) = .error .noMatch ∧ lineOrPair.scan [] = .error .noMatch) := by
  have hpair : lineOrPair.scan [0x41, 0x0D] =
      .ok ⟨"pair", [("first", [0x41]), ("second", [0x0D])]⟩ := rfl
  have hnotPair : lineOrPair.scan ([0x41, 0x0D] ++ [0x0A]) ≠
      .ok ⟨"pair", [("first", [0x41]), ("second", [0x0D])]⟩ := by
    rintro ⟨⟩
  have hboth : lineOrPair.scan [0x41, 0x0D, 0x0A] = .error (.ambiguous ["line", "pair"]) := rfl
  have hnone : lineOrPair.scan ([] ++ [0x41]) = .error .noMatch := rfl
  refine ⟨⟨hpair, ?_⟩, ⟨hboth, ?_⟩, hnone, ?_⟩
  · exact ((scan_append _ _ _).2.1 _ hpair).resolve_left hnotPair
  · exact (scan_append _ _ _).2.2.1 _ hboth
  · exact (scan_append _ _ _).2.2.2 hnone

end Scanner

end DeviceMessages
