import DeviceMessages.Message.Rule

/-!
# A value between two delimiters

A message may have its delimiters in many places, and so there may be many ways to read it as
something before the opening delimiter, a value, and something after the closing one. Such a way is
a `Division` of the message, and of all divisions the one counts that has the least before the
opening delimiter and, with that, the least value.

Extraction looks for the two delimiters one after the other, each time at the first place, and never
goes back. It still finds a value whenever there is a division at all: the first place of the
opening delimiter is not after that of any division, so what follows it ends with what follows the
opening delimiter of that division, closing delimiter included.

## Main results

* `exists_cutAt` — a part that stands somewhere in the bytes is found, and not after that place.
* `extract_between_least` — extraction succeeds for every message that can be divided, with the
  value of the least division.
-/

namespace DeviceMessages.Location

/-! ## Looking for one part -/

/-- A part that stands somewhere in the bytes is found, and at that place or before it. -/
theorem exists_cutAt {part bytes before after : Bytes} (h : bytes = before ++ part ++ after) :
    ∃ first rest, cutAt part bytes = some (first, rest) ∧ first.length ≤ before.length := by
  induction bytes generalizing before with
  | nil =>
      have hpart : part = [] := by simp_all
      subst hpart
      exact ⟨[], [], rfl, Nat.zero_le _⟩
  | cons b bytes ih =>
      unfold cutAt
      by_cases hprefix : part.isPrefixOf (b :: bytes) = true
      · rw [if_pos hprefix]
        exact ⟨[], _, rfl, Nat.zero_le _⟩
      · rw [if_neg hprefix]
        cases before with
        | nil =>
            -- the part would stand at the very front
            have hfront : part <+: b :: bytes := by
              rw [h, List.nil_append]
              exact List.prefix_append part after
            exact absurd (List.isPrefixOf_iff_prefix.2 hfront) hprefix
        | cons c before =>
            have htail : bytes = before ++ part ++ after := by
              simpa using (List.cons.inj h).2
            obtain ⟨first, rest, hcut, hle⟩ := ih htail
            refine ⟨b :: first, rest, ?_, ?_⟩
            · show (cutAt part bytes).map _ = _
              rw [hcut]
              rfl
            · rw [List.length_cons, List.length_cons]
              omega

/-! ## Looking for two -/

/-- One way to read a message as a value between two delimiters, with the rest of the message on
both sides. -/
structure Division (opening closing input : Bytes) where
  before : Bytes
  value : Bytes
  after : Bytes
  input_eq : input = before ++ opening ++ value ++ closing ++ after

namespace Division

variable {opening closing input : Bytes}

/-- What follows the opening delimiter of a division. -/
theorem input_eq_append (e : Division opening closing input) :
    input = e.before ++ opening ++ (e.value ++ closing ++ e.after) := by
  have h := e.input_eq
  simpa only [List.append_assoc] using h

/-- A division that has no more before its opening delimiter than any other one, and no longer a
value than any other one with as much before. -/
def IsLeast (d : Division opening closing input) : Prop :=
  ∀ e : Division opening closing input, d.before.length < e.before.length ∨
    d.before.length = e.before.length ∧ d.value.length ≤ e.value.length

/-- Two least divisions have the same value. -/
theorem IsLeast.value_eq {d e : Division opening closing input} (hd : d.IsLeast)
    (he : e.IsLeast) : d.value = e.value := by
  have hde := hd e
  have hed := he d
  have hbefore : d.before.length = e.before.length := by omega
  have hvalue : d.value.length = e.value.length := by omega
  have hsame : (d.before ++ opening) ++ (d.value ++ (closing ++ d.after)) =
      (e.before ++ opening) ++ (e.value ++ (closing ++ e.after)) := by
    have h := d.input_eq.symm.trans e.input_eq
    simpa only [List.append_assoc] using h
  have hfront : (d.before ++ opening).length = (e.before ++ opening).length := by
    rw [List.length_append, List.length_append, hbefore]
  have hrest := (List.append_inj hsame hfront).2
  exact (List.append_inj hrest hvalue).1

/-- A least value does not hold a closing delimiter, unless that is empty. -/
theorem IsLeast.not_infix {d : Division opening closing input} (hd : d.IsLeast)
    (hne : closing ≠ []) : ¬ closing <:+: d.value := by
  rintro ⟨front, back, hvalue⟩
  have hinput : input =
      d.before ++ opening ++ front ++ closing ++ (back ++ closing ++ d.after) := by
    have h := d.input_eq
    rw [← hvalue] at h
    simpa only [List.append_assoc] using h
  have hle : d.before.length < d.before.length ∨
      d.before.length = d.before.length ∧ d.value.length ≤ front.length :=
    hd ⟨d.before, front, _, hinput⟩
  have hlength : d.value.length = front.length + closing.length + back.length := by
    rw [← hvalue, List.length_append, List.length_append]
  have hpos : 0 < closing.length := List.length_pos_iff.2 hne
  omega

/-- What follows an opening delimiter ends with what follows a later one. -/
theorem suffix_rest {before rest : Bytes} (hinput : input = before ++ opening ++ rest)
    (e : Division opening closing input) (hle : before.length ≤ e.before.length) :
    ∃ passed, rest = passed ++ e.value ++ closing ++ e.after ∧
      before.length + passed.length = e.before.length := by
  have hsame : (before ++ opening) ++ rest =
      (e.before ++ opening) ++ (e.value ++ closing ++ e.after) :=
    hinput.symm.trans e.input_eq_append
  have hfront : (before ++ opening).length ≤ (e.before ++ opening).length := by
    rw [List.length_append, List.length_append]
    omega
  obtain ⟨passed, hpassed⟩ :=
    List.prefix_of_prefix_length_le ⟨rest, hsame⟩ (List.prefix_append _ _) hfront
  refine ⟨passed, ?_, ?_⟩
  · rw [← hpassed, List.append_assoc _ passed] at hsame
    rw [List.append_cancel_left hsame, List.append_assoc, List.append_assoc, List.append_assoc]
  · have hlength := congrArg List.length hpassed
    simp only [List.length_append] at hlength
    omega

/-- The first opening delimiter and the first closing one after it make a least division. -/
theorem isLeast_of_cutAt {before value after rest : Bytes}
    (hopening : cutAt opening input = some (before, rest))
    (hclosing : cutAt closing rest = some (value, after)) :
    ∃ d : Division opening closing input, d.IsLeast ∧ d.value = value := by
  have hinput : input = before ++ opening ++ rest := append_of_cutAt hopening
  have hrest : rest = value ++ closing ++ after := append_of_cutAt hclosing
  let found : Division opening closing input :=
    ⟨before, value, after, by
      rw [hinput, hrest]
      simp only [List.append_assoc]⟩
  refine ⟨found, ?_, rfl⟩
  intro e
  show before.length < e.before.length ∨
    before.length = e.before.length ∧ value.length ≤ e.value.length
  have hbefore : before.length ≤ e.before.length := by
    obtain ⟨first, _, hcut, hle⟩ := exists_cutAt e.input_eq_append
    rw [hopening] at hcut
    cases hcut
    exact hle
  by_cases hsame : before.length = e.before.length
  · right
    refine ⟨hsame, ?_⟩
    obtain ⟨passed, hpassed, hlength⟩ := e.suffix_rest hinput hbefore
    have hvalue : value.length ≤ (passed ++ e.value).length := by
      obtain ⟨first, _, hcut, hle⟩ := exists_cutAt hpassed
      rw [hclosing] at hcut
      cases hcut
      exact hle
    rw [List.length_append] at hvalue
    omega
  · left
    omega

end Division

/-- A message that can be divided has an opening delimiter with a closing one after it where
extraction looks for them. -/
theorem exists_extract_of_division {opening closing input : Bytes}
    (e : Division opening closing input) :
    ∃ value, (between opening closing).extract input = some value := by
  obtain ⟨before, rest, hopening, hle⟩ := exists_cutAt e.input_eq_append
  obtain ⟨passed, hrest, _⟩ := e.suffix_rest (append_of_cutAt hopening) hle
  obtain ⟨value, after, hclosing, _⟩ := exists_cutAt hrest
  refine ⟨value, ?_⟩
  simp only [extract, hopening, hclosing, Option.bind_eq_bind, Option.bind_some]

/-- What is extracted belongs to a least division. -/
theorem exists_isLeast_of_extract {opening closing input value : Bytes}
    (h : (between opening closing).extract input = some value) :
    ∃ d : Division opening closing input, d.IsLeast ∧ d.value = value := by
  simp only [extract, Option.bind_eq_bind, Option.bind_eq_some_iff, Option.some.injEq] at h
  obtain ⟨⟨before, rest⟩, hopening, ⟨found, after⟩, hclosing, rfl⟩ := h
  exact Division.isLeast_of_cutAt hopening hclosing

/-- A value is extracted if and only if the message can be divided in some way, wherever the opening
delimiter of that division stands. It is the value of the least division, and it does not hold the
closing delimiter unless that is empty. -/
theorem extract_between_least (opening closing input : Bytes) :
    (((between opening closing).extract input).isSome ↔
      Nonempty (Division opening closing input)) ∧
    (∀ value, (between opening closing).extract input = some value ↔
      ∃ d : Division opening closing input, d.IsLeast ∧ d.value = value) ∧
    (∀ value, (between opening closing).extract input = some value → closing ≠ [] →
      ¬ closing <:+: value) := by
  have hleast : ∀ value, (between opening closing).extract input = some value ↔
      ∃ d : Division opening closing input, d.IsLeast ∧ d.value = value := by
    intro value
    constructor
    · exact exists_isLeast_of_extract
    · intro h
      obtain ⟨d, hd, rfl⟩ := h
      obtain ⟨found, hfound⟩ := exists_extract_of_division d
      obtain ⟨e, he, hvalue⟩ := exists_isLeast_of_extract hfound
      rw [hfound, ← hvalue, he.value_eq hd]
  refine ⟨?_, hleast, ?_⟩
  · rw [Option.isSome_iff_exists]
    constructor
    · intro h
      obtain ⟨value, hvalue⟩ := h
      obtain ⟨d, _, _⟩ := (hleast value).1 hvalue
      exact ⟨d⟩
    · intro h
      obtain ⟨d⟩ := h
      exact exists_extract_of_division d
  · intro value hvalue hne
    obtain ⟨d, hd, rfl⟩ := (hleast value).1 hvalue
    exact hd.not_infix hne

/-- Delimiters that overlap themselves and each other: in `aaaba` the opening delimiter `aa` stands
at two places and the closing delimiter `a` at four, and the empty value between the first of the
one and the first of the other after it is extracted. In `aaba` there is a `b` between them. -/
theorem extract_between_least_overlapping :
    ((between [0x61, 0x61] [0x61]).extract [0x61, 0x61, 0x61, 0x62, 0x61] = some [] ∧
      ¬ [0x61] <:+: ([] : Bytes)) ∧
    ((between [0x61, 0x61] [0x61]).extract [0x61, 0x61, 0x62, 0x61] = some [0x62] ∧
      ¬ [0x61] <:+: ([0x62] : Bytes)) := by
  have hempty : (between [0x61, 0x61] [0x61]).extract [0x61, 0x61, 0x61, 0x62, 0x61] = some [] :=
    rfl
  have hletter : (between [0x61, 0x61] [0x61]).extract [0x61, 0x61, 0x62, 0x61] = some [0x62] :=
    rfl
  have hne : ([0x61] : Bytes) ≠ [] := List.cons_ne_nil _ _
  exact ⟨⟨hempty, (extract_between_least _ _ _).2.2 _ hempty hne⟩,
    hletter, (extract_between_least _ _ _).2.2 _ hletter hne⟩

end DeviceMessages.Location
