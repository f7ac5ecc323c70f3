import DeviceMessages.Proofs.Text.Span
import DeviceMessages.Validator

/-!
# Durations

A duration is written as seconds, as minutes and seconds, or as hours, minutes and seconds. Hours
and bare seconds have no bound; minutes and seconds that stand beside another part are below 60.

The validator does not ask what a part stands for, only where it stands: every part but the first
has to be below 60. For minutes and seconds the first part is the minutes, and nothing bounds them.
So the validator accepts all durations and, besides, texts of minutes and seconds with 60 minutes or
more (`HasLongMinutes`), which are none.

## Main result

* `isDuration_accepts_iff_writesDuration` — a text with too many minutes is the only one for which
  the validator does not say whether it is a duration.
-/

namespace DeviceMessages.Validator

open Decimal (isNumeral valueOf)
open Text (joinWith splitOn trim)

/-! ## What a duration is -/

/-- One or more digits. -/
def IsCount (ds : List Char) : Prop := ds ≠ [] ∧ ∀ c ∈ ds, c.isDigit = true

/-- The digits of the minutes of an hour or of the seconds of a minute. -/
def IsSixtieth (ds : List Char) : Prop := IsCount ds ∧ valueOf ds < 60

/-- The ways to write a duration. -/
inductive WritesDuration : List Char → Prop
  | seconds {s : List Char} (hs : IsCount s) : WritesDuration s
  | minutes {m s : List Char} (hm : IsSixtieth m) (hs : IsSixtieth s) :
      WritesDuration (m ++ ':' :: s)
  | hours {h m s : List Char} (hh : IsCount h) (hm : IsSixtieth m) (hs : IsSixtieth s) :
      WritesDuration (h ++ ':' :: (m ++ ':' :: s))

/-- Minutes and seconds, with 60 minutes or more. -/
def HasLongMinutes (cs : List Char) : Prop :=
  ∃ m s, cs = m ++ ':' :: s ∧ IsCount m ∧ 60 ≤ valueOf m ∧ IsSixtieth s

/-! ## The parts of a text -/

variable {cs ds : List Char}

theorem isNumeral_iff : isNumeral ds = true ↔ IsCount ds := by
  simp [isNumeral, IsCount]

theorem IsCount.colon_notMem (h : IsCount ds) : ':' ∉ ds := by
  intro hmem
  cases h.2 ':' hmem

/-- Digits between colons are the parts that the text is split into. -/
theorem splitOn_counts (parts : List (List Char)) (hcs : cs = joinWith ':' parts)
    (hne : parts ≠ []) (hparts : ∀ part ∈ parts, IsCount part) : splitOn ':' cs = parts := by
  rw [hcs]
  exact Text.splitOn_joinWith hne fun part hpart => (hparts part hpart).colon_notMem

/-- The parts of a duration are as many as are written. -/
theorem WritesDuration.splitOn_eq (h : WritesDuration cs) :
    (∃ s, IsCount s ∧ splitOn ':' cs = [s]) ∨
    (∃ m s, IsSixtieth m ∧ IsSixtieth s ∧ splitOn ':' cs = [m, s]) ∨
    ∃ h m s, IsCount h ∧ IsSixtieth m ∧ IsSixtieth s ∧ splitOn ':' cs = [h, m, s] := by
  cases h with
  | seconds hs =>
      have hparts := splitOn_counts [cs] rfl (List.cons_ne_nil _ _) (by simpa using hs)
      exact .inl ⟨cs, hs, hparts⟩
  | @minutes m s hm hs =>
      have hparts := splitOn_counts [m, s] rfl (List.cons_ne_nil _ _)
        (by simpa using ⟨hm.1, hs.1⟩)
      exact .inr (.inl ⟨m, s, hm, hs, hparts⟩)
  | @hours h m s hh hm hs =>
      have hparts := splitOn_counts [h, m, s] rfl (List.cons_ne_nil _ _)
        (by simpa using ⟨hh, hm.1, hs.1⟩)
      exact .inr (.inr ⟨h, m, s, hh, hm, hs, hparts⟩)

theorem HasLongMinutes.splitOn_eq (h : HasLongMinutes cs) :
    ∃ m s, IsCount m ∧ 60 ≤ valueOf m ∧ IsSixtieth s ∧ splitOn ':' cs = [m, s] := by
  obtain ⟨m, s, hcs, hm, hlong, hs⟩ := h
  have hparts := splitOn_counts [m, s] hcs (List.cons_ne_nil _ _)
    (by simpa using ⟨hm, hs.1⟩)
  exact ⟨m, s, hm, hlong, hs, hparts⟩

/-- Texts with too many minutes are no durations. -/
theorem HasLongMinutes.not_writesDuration (h : HasLongMinutes cs) : ¬ WritesDuration cs := by
  obtain ⟨m, s, -, hlong, -, hparts⟩ := h.splitOn_eq
  intro hduration
  rcases hduration.splitOn_eq with ⟨s', -, hone⟩ | ⟨m', s', hm', -, htwo⟩ |
    ⟨h', m', s', -, -, -, hthree⟩
  · rw [hparts] at hone
    cases hone
  · rw [hparts] at htwo
    cases htwo
    have hshort := hm'.2
    omega
  · rw [hparts] at hthree
    cases hthree

/-! ## What the validator accepts -/

/-- The validator accepts digits, or digits and then one or two sixtieths. -/
theorem isDuration_accepts_iff_splitOn (value : String) :
    isDuration.accepts value = true ↔ ∃ first others,
      splitOn ':' (trim value.toList) = first :: others ∧ others.length ≤ 2 ∧ IsCount first ∧
        ∀ part ∈ others, IsSixtieth part := by
  show isDurationParts (splitOn ':' (trim value.toList)) = true ↔ _
  cases hparts : splitOn ':' (trim value.toList) with
  | nil => exact absurd hparts (Text.splitOn_ne_nil _ _)
  | cons first others =>
      simp only [isDurationParts, Bool.and_eq_true, decide_eq_true_eq, List.all_eq_true,
        List.length_cons, List.tail_cons, isNumeral_iff, List.forall_mem_cons]
      constructor
      · rintro ⟨⟨hlength, hfirst, hcounts⟩, hsmall⟩
        exact ⟨first, others, rfl, by omega, hfirst,
          fun part hpart => ⟨hcounts part hpart, hsmall part hpart⟩⟩
      · rintro ⟨first', others', heq, hlength, hfirst, hothers⟩
        cases heq
        exact ⟨⟨by omega, hfirst, fun part hpart => (hothers part hpart).1⟩,
          fun part hpart => (hothers part hpart).2⟩

/-- These are the durations and the texts with too many minutes. -/
theorem isDuration_accepts_iff (value : String) :
    isDuration.accepts value = true ↔
      WritesDuration (trim value.toList) ∨ HasLongMinutes (trim value.toList) := by
  rw [isDuration_accepts_iff_splitOn]
  constructor
  · rintro ⟨first, others, hparts, hlength, hfirst, hothers⟩
    have htext : trim value.toList = joinWith ':' (first :: others) := by
      rw [← hparts, Text.joinWith_splitOn]
    rw [htext]
    match others with
    | [] => exact .inl (.seconds hfirst)
    | [s] =>
        have hs := hothers s List.mem_cons_self
        by_cases hshort : valueOf first < 60
        · exact .inl (.minutes ⟨hfirst, hshort⟩ hs)
        · exact .inr ⟨first, s, rfl, hfirst, Nat.le_of_not_lt hshort, hs⟩
    | [m, s] =>
        have hm := hothers m List.mem_cons_self
        have hs := hothers s (List.mem_cons_of_mem m List.mem_cons_self)
        exact .inl (.hours hfirst hm hs)
    | _ :: _ :: _ :: _ => simp at hlength
  · rintro (hduration | hlong)
    · rcases hduration.splitOn_eq with ⟨s, hs, hparts⟩ | ⟨m, s, hm, hs, hparts⟩ |
        ⟨h, m, s, hh, hm, hs, hparts⟩
      · exact ⟨s, [], hparts, by simp, hs, nofun⟩
      · exact ⟨m, [s], hparts, by simp, hm.1, by simpa using hs⟩
      · exact ⟨h, [m, s], hparts, by simp, hh, by simpa using ⟨hm, hs⟩⟩
    · obtain ⟨m, s, hm, -, hs, hparts⟩ := hlong.splitOn_eq
      exact ⟨m, [s], hparts, by simp, hm, by simpa using hs⟩

theorem create_isDuration : Validators.builtin.create "is_duration" [] = .ok isDuration := by
  simp [Validators.create, Validators.builtin, Table.insertAll, plain]

/-- The validator of durations accepts exactly the durations, unless the text has too many minutes:
such a text is no duration, and is accepted. -/
theorem isDuration_accepts_iff_writesDuration (value : String) :
    Validators.builtin.create "is_duration" [] = .ok isDuration ∧
    ((isDuration.accepts value = true ↔ WritesDuration (trim value.toList)) ↔
      ¬ HasLongMinutes (trim value.toList)) ∧
    (HasLongMinutes (trim value.toList) → isDuration.accepts value = true) := by
  have haccepts := isDuration_accepts_iff value
  refine ⟨create_isDuration, ⟨?_, ?_⟩, fun hlong => haccepts.2 (.inr hlong)⟩
  · intro hexact hlong
    exact hlong.not_writesDuration (hexact.1 (haccepts.2 (.inr hlong)))
  · intro hshort
    rw [haccepts]
    exact or_iff_left hshort

/-- Sixty minutes are accepted without an hour. -/
theorem isDuration_accepts_sixty_minutes :
    ¬ (isDuration.accepts "60:00" = true ↔ WritesDuration (trim "60:00".toList)) := by
  have hlong : HasLongMinutes (trim "60:00".toList) := by
    refine ⟨['6', '0'], ['0', '0'], by decide, ?_, by decide, ?_, by decide⟩
    · exact isNumeral_iff.1 rfl
    · exact isNumeral_iff.1 rfl
  intro hexact
  exact hlong.not_writesDuration (hexact.1 (by decide))

end DeviceMessages.Validator
