import DeviceMessages.Proofs.Message.Classification
import DeviceMessages.Proofs.Message.Extension
import Mathlib.Data.List.Induction

/-!
# One collecting sink for many messages

A collecting sink can be used again and again. Each message that is taken replaces the name and
the fields of the one before. A message that is not taken is only noted in `success`: it leaves the
name and the fields of an earlier message where they are, so these are always those of the last
message that was taken since the sink was cleared (`collected_is_latest`).

`Latest` says which message that is by the history alone, without running anything. The proof
follows the steps: one that takes a message leaves nothing of what was collected before
(`run_of_takes`), and one that does not keeps the name and the fields (`run_of_refuses`), so a tail
of the history without a message that is taken does not count (`runAll_of_refuses`).
-/

namespace DeviceMessages

/-! ## Delivering to a collecting sink -/

namespace Sink

theorem deliverFields_collecting (fields : List FieldValue) (c : Collected) :
    collecting.deliverFields fields c = ({ c with fields := c.fields ++ fields }, true) := by
  induction fields generalizing c with
  | nil => simp [deliverFields]
  | cons f fields ih =>
      show collecting.deliverFields fields { c with fields := c.fields ++ [f] } = _
      rw [ih]
      simp

/-- A message that is delivered replaces what was collected before. -/
theorem deliver_collecting (name : String) (fields : List FieldValue) (c : Collected) :
    collecting.deliver name fields c = (⟨some name, fields, some true⟩, true) := by
  have hfields := deliverFields_collecting fields (collecting.start name c)
  simp only [deliver, hfields]
  rfl

end Sink

namespace Collected

/-! ## Steps -/

/-- What is done with a collecting sink: a message is parsed into it, by a scanner or as one of a
kind, or it is cleared. -/
inductive Step where
  | scan (s : Scanner) (input : Bytes)
  | parse (kind : MessageKind) (input : Bytes)
  | clear

namespace Step

/-- The sink after a step, and whether the message was taken if the step parses one. -/
def run (c : Collected) : Step → Collected × Option Bool
  | .scan s input =>
    let (c', outcome) := s.parse Sink.collecting input c
    (c', some outcome.isMatch)
  | .parse kind input =>
    let (c', taken) := kind.parse Sink.collecting input c
    (c', some taken)
  | .clear => (Collected.empty, none)

/-- The step uses a scanner or a kind that can be made. -/
def IsMade : Step → Prop
  | .scan s _ => s.IsMade
  | .parse kind _ => kind.IsMade
  | .clear => True

/-- The step takes a message of a kind: all rules of the kind apply to it, and a scanner has no
other kind all of whose rules apply. -/
inductive Takes : Step → MessageKind → Bytes → Prop
  | scan {s : Scanner} {input : Bytes} {kind : MessageKind} (h : s.applicable input = [kind]) :
      Takes (.scan s input) kind input
  | parse {kind : MessageKind} {input : Bytes} (h : kind.applies input = true) :
      Takes (.parse kind input) kind input

/-- The step parses a message that is not taken. -/
inductive Refuses : Step → Prop
  | scan {s : Scanner} {input : Bytes} (h : (s.applicable input).length ≠ 1) :
      Refuses (.scan s input)
  | parse {kind : MessageKind} {input : Bytes} (h : kind.applies input = false) :
      Refuses (.parse kind input)

theorem takes_or_refuses (step : Step) :
    (∃ kind input, step.Takes kind input) ∨ step.Refuses ∨ step = .clear := by
  cases step with
  | scan s input =>
      by_cases hone : (s.applicable input).length = 1
      · obtain ⟨kind, hkind⟩ := List.length_eq_one_iff.1 hone
        exact .inl ⟨kind, input, .scan hkind⟩
      · exact .inr (.inl (.scan hone))
  | parse kind input =>
      cases h : kind.applies input with
      | true => exact .inl ⟨kind, input, .parse h⟩
      | false => exact .inr (.inl (.parse h))
  | clear => exact .inr (.inr rfl)

theorem Takes.isMade {step : Step} {kind : MessageKind} {input : Bytes} (h : step.Takes kind input)
    (hmade : step.IsMade) : kind.IsMade := by
  cases h with
  | @scan s _ _ hone =>
      have hmem : kind ∈ s.applicable input := by
        rw [hone]
        exact List.mem_singleton_self kind
      exact Scanner.IsMade.kinds hmade kind (List.mem_filter.1 hmem).1
  | parse _ => exact hmade

theorem run_of_takes {step : Step} {kind : MessageKind} {input : Bytes}
    (h : step.Takes kind input) (c : Collected) :
    ∃ fields, kind.Extracts input fields ∧
      step.run c = (⟨some kind.name, fields, some true⟩, some true) := by
  cases h with
  | @scan s _ _ hone =>
      obtain ⟨fields, hfields, hscan⟩ := Scanner.scan_of_applicable_eq_singleton hone
      refine ⟨fields, hfields, ?_⟩
      simp only [run, Scanner.parse, hscan, Match.commit, Sink.deliver_collecting]
      rfl
  | parse happlies =>
      obtain ⟨fields, hmatch, hfields⟩ := kind.match?_of_applies happlies
      refine ⟨fields, hfields, ?_⟩
      simp only [run, MessageKind.parse, hmatch, Match.commit, Sink.deliver_collecting]

theorem run_of_refuses {step : Step} (h : step.Refuses) (c : Collected) :
    step.run c = ({ c with success := some false }, some false) := by
  cases h with
  | @scan s input hmany =>
      cases hscan : s.scan input with
      | ok m =>
          have hlength := congrArg List.length (s.map_name_allMatches input)
          rw [Scanner.scan_eq_ok_iff.1 hscan, List.length_map, List.length_map] at hlength
          exact absurd hlength.symm hmany
      | error e =>
          simp only [run, Scanner.parse, hscan]
          rfl
  | @parse kind input hnot =>
      simp only [run, MessageKind.parse, kind.match?_of_not_applies hnot]
      rfl

theorem Takes.not_refuses {step : Step} {kind : MessageKind} {input : Bytes}
    (h : step.Takes kind input) : ¬ step.Refuses := by
  intro hrefuses
  obtain ⟨fields, -, htaken⟩ := run_of_takes h empty
  rw [run_of_refuses hrefuses] at htaken
  cases htaken

end Step

/-- The sink after steps, the first of which finds it empty. -/
def runAll (steps : List Step) : Collected :=
  steps.foldl (fun c step => (step.run c).1) empty

theorem runAll_append_singleton (steps : List Step) (step : Step) :
    runAll (steps ++ [step]) = (step.run (runAll steps)).1 := by
  rw [runAll, List.foldl_append]
  rfl

/-- Messages that are not taken leave the name and the fields as they are. -/
theorem runAll_of_refuses (steps : List Step) {later : List Step}
    (h : ∀ step ∈ later, step.Refuses) :
    (runAll (steps ++ later)).name = (runAll steps).name ∧
      (runAll (steps ++ later)).fields = (runAll steps).fields := by
  induction later using List.reverseRecOn with
  | nil => simp
  | append_singleton later step ih =>
      have hlater : ∀ s ∈ later, s.Refuses := fun s hs => h s (List.mem_append_left _ hs)
      have hstep : step.Refuses := h step (List.mem_append_right _ (List.mem_singleton_self step))
      rw [← List.append_assoc, runAll_append_singleton, Step.run_of_refuses hstep]
      exact ih hlater

/-! ## The last message that was taken -/

/-- The kind and the bytes of the last message that was taken since the sink was cleared, or since
the beginning if it was not. -/
inductive Latest : List Step → Option (MessageKind × Bytes) → Prop
  | taken {before later : List Step} {step : Step} {kind : MessageKind} {input : Bytes}
      (hstep : step.Takes kind input) (hlater : ∀ s ∈ later, s.Refuses) :
      Latest (before ++ step :: later) (some (kind, input))
  | cleared {before later : List Step} (hlater : ∀ s ∈ later, s.Refuses) :
      Latest (before ++ .clear :: later) none
  | fresh {later : List Step} (hlater : ∀ s ∈ later, s.Refuses) : Latest later none

/-- One more message that is not taken does not count. -/
theorem Latest.append_refuses {history : List Step} {latest : Option (MessageKind × Bytes)}
    (h : Latest history latest) {step : Step} (hstep : step.Refuses) :
    Latest (history ++ [step]) latest := by
  have hmore : ∀ {later : List Step}, (∀ s ∈ later, s.Refuses) →
      ∀ s ∈ later ++ [step], s.Refuses := by
    intro later hlater s hs
    rcases List.mem_append.1 hs with hs | hs
    · exact hlater s hs
    · rw [List.mem_singleton.1 hs]
      exact hstep
  cases h with
  | taken htakes hlater =>
      rw [List.append_assoc, List.cons_append]
      exact .taken htakes (hmore hlater)
  | cleared hlater =>
      rw [List.append_assoc, List.cons_append]
      exact .cleared (hmore hlater)
  | fresh hlater => exact .fresh (hmore hlater)

theorem exists_latest (history : List Step) : ∃ latest, Latest history latest := by
  induction history using List.reverseRecOn with
  | nil => exact ⟨none, .fresh fun s hs => absurd hs List.not_mem_nil⟩
  | append_singleton history step ih =>
      have hnone : ∀ s ∈ ([] : List Step), s.Refuses := fun s hs => absurd hs List.not_mem_nil
      rcases step.takes_or_refuses with ⟨kind, input, htakes⟩ | hrefuses | rfl
      · exact ⟨some (kind, input), .taken htakes hnone⟩
      · obtain ⟨latest, hlatest⟩ := ih
        exact ⟨latest, hlatest.append_refuses hrefuses⟩
      · exact ⟨none, .cleared hnone⟩

/-! ## What the sink shows -/

/-- The sink has the name of a kind and one field for each rule of the kind, in the order of the
rules, with the value that the rule extracts from a message. Each value is found by the name of its
rule, and nothing is found by another name. -/
structure Holds (c : Collected) (kind : MessageKind) (input : Bytes) : Prop where
  name : c.name = some kind.name
  fields : kind.Extracts input c.fields
  get?_rule : ∀ r ∈ kind.rules, ∃ value, r.apply input = some value ∧ c.get? r.name = some value
  get?_other : ∀ name, name ∉ kind.rules.map (·.name) → c.get? name = none

/-- The sink has no name and no fields, and nothing is found by any name. -/
structure HoldsNothing (c : Collected) : Prop where
  name : c.name = none
  fields : c.fields = []
  get? : ∀ name, c.get? name = none

/-- The sink has what a message left, or nothing if there is no message. -/
def Shows (c : Collected) : Option (MessageKind × Bytes) → Prop
  | some (kind, input) => c.Holds kind input
  | none => c.HoldsNothing

theorem holds_of_extracts {c : Collected} {kind : MessageKind} {input : Bytes}
    (hmade : kind.IsMade) (hname : c.name = some kind.name)
    (hfields : kind.Extracts input c.fields) : c.Holds kind input where
  name := hname
  fields := hfields
  get?_rule := by
    intro r hr
    have hnodup : (c.fields.map (·.1)).Nodup := by
      rw [hfields.map_name]
      exact MessageKind.isMade_iff.1 hmade
    obtain ⟨⟨name, value⟩, hmem, rfl, hvalue⟩ := exists_mem_of_forall₂ hfields hr
    exact ⟨value, hvalue, (lookup_eq_some_iff_mem hnodup).2 hmem⟩
  get?_other := by
    intro name hnot
    rw [get?, List.lookup_eq_none_iff]
    intro f hf
    rw [← hfields.map_name] at hnot
    have hne : f.1 ≠ name := fun heq => hnot (heq ▸ List.mem_map_of_mem hf)
    simpa using hne.symm

theorem holdsNothing_of_empty {c : Collected} (hname : c.name = none) (hfields : c.fields = []) :
    c.HoldsNothing where
  name := hname
  fields := hfields
  get? name := by rw [get?, hfields]; rfl

theorem Latest.shows {history : List Step} (hmade : ∀ step ∈ history, step.IsMade)
    {latest : Option (MessageKind × Bytes)} (h : Latest history latest) :
    (runAll history).Shows latest := by
  cases h with
  | @taken before later step kind input hstep hlater =>
      have hsteps : before ++ step :: later = before ++ [step] ++ later := by simp
      have hkind : kind.IsMade :=
        hstep.isMade (hmade step (List.mem_append_right before List.mem_cons_self))
      obtain ⟨fields, hfields, hrun⟩ := Step.run_of_takes hstep (runAll before)
      obtain ⟨hname', hfields'⟩ := runAll_of_refuses (before ++ [step]) hlater
      rw [runAll_append_singleton, hrun] at hname' hfields'
      rw [hsteps]
      exact holds_of_extracts hkind hname' (hfields' ▸ hfields)
  | @cleared before later hlater =>
      have hsteps : before ++ .clear :: later = before ++ [.clear] ++ later := by simp
      obtain ⟨hname, hfields⟩ := runAll_of_refuses (before ++ [.clear]) hlater
      rw [runAll_append_singleton] at hname hfields
      rw [hsteps]
      exact holdsNothing_of_empty hname hfields
  | fresh hlater =>
      obtain ⟨hname, hfields⟩ := runAll_of_refuses [] hlater
      exact holdsNothing_of_empty hname hfields

/-- After any steps the sink shows the last message that was taken since it was cleared. After a
step that parses a message it also shows, in `success`, what the step answered; a message that is
not taken changes nothing else. -/
theorem collected_is_latest (history : List Step) (hmade : ∀ step ∈ history, step.IsMade) :
    (∃ latest, Latest history latest) ∧
    (∀ latest, Latest history latest → (runAll history).Shows latest) ∧
    ∀ step taken, (step.run (runAll history)).2 = some taken →
      (runAll (history ++ [step])).success = some taken ∧
      (taken = true ↔ ∃ kind input, step.Takes kind input) ∧
      (taken = false → (runAll (history ++ [step])).name = (runAll history).name ∧
        (runAll (history ++ [step])).fields = (runAll history).fields) := by
  refine ⟨exists_latest history, fun latest h => h.shows hmade, ?_⟩
  intro step taken hanswer
  rw [runAll_append_singleton]
  rcases step.takes_or_refuses with ⟨kind, input, htakes⟩ | hrefuses | rfl
  · obtain ⟨fields, -, hrun⟩ := Step.run_of_takes htakes (runAll history)
    rw [hrun] at hanswer ⊢
    cases hanswer
    exact ⟨rfl, ⟨fun _ => ⟨kind, input, htakes⟩, fun _ => rfl⟩, fun hfalse => by cases hfalse⟩
  · have hrun := Step.run_of_refuses hrefuses (runAll history)
    rw [hrun] at hanswer ⊢
    cases hanswer
    refine ⟨rfl, ⟨fun htrue => (by cases htrue), ?_⟩, fun _ => ⟨rfl, rfl⟩⟩
    rintro ⟨kind, input, htakes⟩
    exact absurd hrefuses htakes.not_refuses
  · cases hanswer

/-- A pair of bytes is taken, what is a pair and enclosed is not, and the sink still has the pair.
The step after that finds nothing to take either. -/
theorem collected_is_latest_pair :
    (∀ step ∈ [.parse .pair [0x41, 0x42], .scan ⟨"line", [.pair, .enclosed]⟩ [0x3B, 0x3B]],
      Step.IsMade step) ∧
    (runAll [.parse .pair [0x41, 0x42],
      .scan ⟨"line", [.pair, .enclosed]⟩ [0x3B, 0x3B]]).Holds .pair [0x41, 0x42] ∧
    (runAll [.parse .pair [0x41, 0x42], .scan ⟨"line", [.pair, .enclosed]⟩ [0x3B, 0x3B],
      .parse .enclosed [0x41]]).success = some false := by
  have hpair : MessageKind.pair.IsMade := rfl
  have henclosed : MessageKind.enclosed.IsMade := rfl
  have hline : Scanner.IsMade ⟨"line", [.pair, .enclosed]⟩ := ⟨rfl, by simp [hpair, henclosed]⟩
  have hmade : ∀ step ∈ [.parse .pair [0x41, 0x42],
      .scan ⟨"line", [.pair, .enclosed]⟩ [0x3B, 0x3B]], Step.IsMade step := by
    simp [Step.IsMade, hpair, hline]
  have htakes : Step.Takes (.parse .pair [0x41, 0x42]) .pair [0x41, 0x42] := .parse rfl
  have hrefuses : Step.Refuses (.scan ⟨"line", [.pair, .enclosed]⟩ [0x3B, 0x3B]) :=
    .scan (by decide)
  have hlatest : Latest
      ([] ++ .parse .pair [0x41, 0x42] :: [.scan ⟨"line", [.pair, .enclosed]⟩ [0x3B, 0x3B]])
      (some (.pair, [0x41, 0x42])) :=
    .taken htakes (by simpa using hrefuses)
  obtain ⟨-, hshows, hstep⟩ := collected_is_latest _ hmade
  exact ⟨hmade, hshows _ hlatest, (hstep (.parse .enclosed [0x41]) false rfl).1⟩

end Collected

end DeviceMessages
