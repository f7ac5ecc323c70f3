import DeviceMessages.Message.Scanner
import DeviceMessages.Proofs.Failure
import DeviceMessages.Proofs.Message.Calls

/-!
# How a message is classified and delivered

A scanner is asked in three ways: without a sink, with a sink, and through the one kind that a
message is of. All three are tied here to one description, the kinds all of whose rules apply
(`Scanner.applicable`).

* No such kind, or several: the sink is told only that there is no message, and the answer names
  all of the kinds.
* Exactly one: the message is delivered with the values that its rules extract, as
  `Sink.Delivers` says, and the answer is whether the sink took all of them.

`scan_and_parse_by_applicable_kinds` states this for every sink, whatever it does with its calls.
-/

namespace DeviceMessages

open Sink (Call)

/-- All rules of the kind apply to a message. -/
def MessageKind.applies (kind : MessageKind) (input : Bytes) : Bool :=
  kind.rules.all fun r => (r.apply input).isSome

/-- The kinds, in the order of the scanner, all of whose rules apply to a message. -/
def Scanner.applicable (s : Scanner) (input : Bytes) : List MessageKind :=
  s.kinds.filter (·.applies input)

/-- The fields are the values that the rules of a kind extract, in the order of the rules. -/
def MessageKind.Extracts (kind : MessageKind) (input : Bytes) (fields : List FieldValue) : Prop :=
  List.Forall₂ (fun (r : Rule) f => f.1 = r.name ∧ r.apply input = some f.2) kind.rules fields

/-! ## One kind -/

private theorem extractFields_eq_some {input : Bytes} {rules : List Rule}
    (h : rules.all (fun r => (r.apply input).isSome) = true) :
    ∃ fields, MessageKind.extractFields input rules = some fields ∧
      List.Forall₂ (fun (r : Rule) f => f.1 = r.name ∧ r.apply input = some f.2) rules fields := by
  induction rules with
  | nil => exact ⟨[], rfl, .nil⟩
  | cons r rules ih =>
      rw [List.all_cons, Bool.and_eq_true] at h
      obtain ⟨value, hvalue⟩ := Option.isSome_iff_exists.1 h.1
      obtain ⟨fields, hfields, hall⟩ := ih h.2
      refine ⟨(r.name, value) :: fields, ?_, .cons ⟨rfl, hvalue⟩ hall⟩
      simp [MessageKind.extractFields, hvalue, hfields]

private theorem extractFields_eq_none {input : Bytes} {rules : List Rule}
    (h : rules.all (fun r => (r.apply input).isSome) = false) :
    MessageKind.extractFields input rules = none := by
  induction rules with
  | nil => cases h
  | cons r rules ih =>
      cases hvalue : r.apply input with
      | none => simp [MessageKind.extractFields, hvalue]
      | some value =>
          have hrest : rules.all (fun r => (r.apply input).isSome) = false := by
            simpa [hvalue] using h
          simp [MessageKind.extractFields, ih hrest]

theorem MessageKind.match?_of_applies {kind : MessageKind} {input : Bytes}
    (h : kind.applies input = true) :
    ∃ fields, kind.match? input = some ⟨kind.name, fields⟩ ∧ kind.Extracts input fields := by
  obtain ⟨fields, hfields, hall⟩ := extractFields_eq_some h
  exact ⟨fields, by simp [MessageKind.match?, hfields], hall⟩

theorem MessageKind.match?_of_not_applies {kind : MessageKind} {input : Bytes}
    (h : kind.applies input = false) : kind.match? input = none := by
  simp [MessageKind.match?, extractFields_eq_none h]

theorem MessageKind.extractFields_eq_some_iff {input : Bytes} {rules : List Rule}
    {fields : List FieldValue} :
    MessageKind.extractFields input rules = some fields ↔
      List.Forall₂ (fun (r : Rule) f => f.1 = r.name ∧ r.apply input = some f.2) rules fields := by
  induction rules generalizing fields with
  | nil => simp [MessageKind.extractFields, eq_comm]
  | cons r rules ih =>
      simp only [MessageKind.extractFields, Option.bind_eq_bind, Option.bind_eq_some_iff,
        Option.some.injEq, List.forall₂_cons_left_iff, ih]
      constructor
      · rintro ⟨value, hvalue, others, hothers, rfl⟩
        exact ⟨(r.name, value), others, ⟨rfl, hvalue⟩, hothers, rfl⟩
      · rintro ⟨⟨name, value⟩, others, ⟨rfl, hvalue⟩, hothers, rfl⟩
        exact ⟨value, hvalue, others, hothers, rfl⟩

theorem MessageKind.match?_eq_some_iff {kind : MessageKind} {input : Bytes} {m : Match} :
    kind.match? input = some m ↔ m.name = kind.name ∧ kind.Extracts input m.fields := by
  rw [match?, Option.map_eq_some_iff]
  constructor
  · rintro ⟨fields, hfields, rfl⟩
    exact ⟨rfl, extractFields_eq_some_iff.1 hfields⟩
  · rintro ⟨hname, hfields⟩
    exact ⟨m.fields, extractFields_eq_some_iff.2 hfields, by rw [← hname]⟩

theorem MessageKind.Extracts.map_name {kind : MessageKind} {input : Bytes}
    {fields : List FieldValue} (h : kind.Extracts input fields) :
    fields.map (·.1) = kind.rules.map (·.name) :=
  map_eq_map_of_forall₂ h fun _ _ hf => hf.1

/-! ## Fields by name -/

/-- Under different names each value is found by its name. -/
theorem lookup_eq_some_iff_mem {fields : List FieldValue} (h : (fields.map (·.1)).Nodup)
    {name : String} {value : Bytes} :
    fields.lookup name = some value ↔ (name, value) ∈ fields := by
  rw [List.lookup_eq_some_iff]
  constructor
  · rintro ⟨before, after, rfl, -⟩
    exact List.mem_append_right before List.mem_cons_self
  · intro hmem
    obtain ⟨before, after, rfl⟩ := List.append_of_mem hmem
    refine ⟨before, after, rfl, fun f hf => ?_⟩
    rw [List.map_append, List.map_cons, List.nodup_append] at h
    have hne : f.1 ≠ name := h.2.2 f.1 (List.mem_map_of_mem hf) name List.mem_cons_self
    simpa using hne.symm

/-! ## Delivery to a sink -/

/-- A message of the kind is delivered. -/
private theorem makes_parse_kind {σ : Type} {kind : MessageKind} {input : Bytes}
    {fields : List FieldValue} {sink : Sink σ} {state : σ} {calls : List Call} {success : Bool}
    (hmatch : kind.match? input = some ⟨kind.name, fields⟩)
    (h : sink.Delivers state kind.name fields calls success) :
    sink.Makes state (fun sink state => kind.parse sink input state) calls success := by
  have hparse : ∀ {τ : Type} (k : Sink τ) (t : τ),
      kind.parse k input t = k.deliver kind.name fields t := by
    intro τ k t
    simp only [MessageKind.parse, hmatch, Match.commit]
  have hmakes := Sink.makes_deliver h
  exact ⟨by rw [hparse]; exact hmakes.state, fun log => by rw [hparse]; exact hmakes.log log⟩

/-! ## All kinds of a scanner -/

/-- The matches are those of the applicable kinds, in the same order. -/
private theorem forall₂_allMatches (kinds : List MessageKind) (input : Bytes) :
    List.Forall₂ (fun k m => k.match? input = some m ∧ m.name = k.name)
      (kinds.filter (·.applies input)) (kinds.filterMap (·.match? input)) := by
  induction kinds with
  | nil => exact .nil
  | cons kind kinds ih =>
      cases h : kind.applies input with
      | true =>
          obtain ⟨fields, hmatch, _⟩ := kind.match?_of_applies h
          simp only [List.filter_cons, List.filterMap_cons, h, hmatch, if_true]
          exact .cons ⟨hmatch, rfl⟩ ih
      | false =>
          have hnone := kind.match?_of_not_applies h
          simp only [List.filter_cons, List.filterMap_cons, h, hnone, Bool.false_eq_true, if_false]
          exact ih

private theorem map_name_of_forall₂ {input : Bytes} {ks : List MessageKind} {ms : List Match}
    (h : List.Forall₂ (fun k m => k.match? input = some m ∧ m.name = k.name) ks ms) :
    ms.map (·.name) = ks.map (·.name) := by
  induction h with
  | nil => rfl
  | cons hhead _ ih => rw [List.map_cons, List.map_cons, ih, hhead.2]

theorem Scanner.map_name_allMatches (s : Scanner) (input : Bytes) :
    (s.allMatches input).map (·.name) = (s.applicable input).map (·.name) :=
  map_name_of_forall₂ (forall₂_allMatches s.kinds input)

theorem Scanner.scan_of_applicable_eq_singleton {s : Scanner} {input : Bytes} {kind : MessageKind}
    (h : s.applicable input = [kind]) :
    ∃ fields, kind.Extracts input fields ∧ s.scan input = .ok ⟨kind.name, fields⟩ := by
  have hall : List.Forall₂ (fun k m => k.match? input = some m ∧ m.name = k.name) [kind]
      (s.allMatches input) := h ▸ forall₂_allMatches s.kinds input
  obtain ⟨m, ms, ⟨hmatch, -⟩, hnil, heq⟩ := List.forall₂_cons_left_iff.1 hall
  rw [List.forall₂_nil_left_iff.1 hnil] at heq
  obtain ⟨hname, hfields⟩ := MessageKind.match?_eq_some_iff.1 hmatch
  refine ⟨m.fields, hfields, ?_⟩
  rw [Scanner.scan, heq, ← hname]

/-- A message that is not of exactly one kind is refused as a whole. -/
private theorem makes_parse_of_error {σ : Type} {s : Scanner} {input : Bytes} {e : ScanError}
    (h : s.scan input = .error e) (sink : Sink σ) (state : σ) :
    sink.Makes state (fun sink state => s.parse sink input state) [.finish false] (.error e) := by
  have hparse : ∀ {τ : Type} (k : Sink τ) (t : τ),
      s.parse k input t = (k.deliverNothing t, .error e) := by
    intro τ k t
    simp only [Scanner.parse, h]
  exact ⟨hparse sink state, fun log => hparse sink.logged (log, state)⟩

private theorem makes_parse_of_ok {σ : Type} {s : Scanner} {input : Bytes} {m : Match}
    {sink : Sink σ} {state : σ} {calls : List Call} {success : Bool}
    (hscan : s.scan input = .ok m) (h : sink.Delivers state m.name m.fields calls success) :
    sink.Makes state (fun sink state => s.parse sink input state) calls
      (if success then .ok m.name else .error (.rejected m.name)) := by
  have hparse : ∀ {τ : Type} (k : Sink τ) (t : τ), s.parse k input t =
      ((k.deliver m.name m.fields t).1,
        if (k.deliver m.name m.fields t).2 then .ok m.name else .error (.rejected m.name)) := by
    intro τ k t
    simp only [Scanner.parse, hscan, Match.commit]
    rfl
  have hmakes := Sink.makes_deliver h
  exact ⟨by rw [hparse, hmakes.state], fun log => by rw [hparse, hmakes.log]⟩

/-! ## What can be made -/

private theorem firstRepeated?_nil_eq_none_iff (names : List String) :
    firstRepeated? [] names = none ↔ names.Nodup := by
  simp [firstRepeated?_eq_none_iff]

theorem MessageKind.make_eq_ok_iff {name : String} {rules : List Rule} {kind : MessageKind} :
    MessageKind.make name rules = .ok kind ↔
      (rules.map (·.name)).Nodup ∧ kind = ⟨name, rules⟩ := by
  rw [← firstRepeated?_nil_eq_none_iff, MessageKind.make]
  cases firstRepeated? [] (rules.map (·.name)) <;> simp [eq_comm]

theorem Scanner.make_eq_ok_iff {name : String} {kinds : List MessageKind} {s : Scanner} :
    Scanner.make name kinds = .ok s ↔
      kinds ≠ [] ∧ (kinds.map (·.name)).Nodup ∧ s = ⟨name, kinds⟩ := by
  rw [← firstRepeated?_nil_eq_none_iff, Scanner.make]
  cases kinds with
  | nil => simp
  | cons kind kinds =>
      cases firstRepeated? [] ((kind :: kinds).map (·.name)) <;> simp [eq_comm]

/-- The kind is one that can be made: its rules have different names. -/
def MessageKind.IsMade (kind : MessageKind) : Prop :=
  MessageKind.make kind.name kind.rules = .ok kind

/-- The scanner is one that can be made of kinds that can be made. -/
structure Scanner.IsMade (s : Scanner) : Prop where
  made : Scanner.make s.name s.kinds = .ok s
  kinds : ∀ kind ∈ s.kinds, kind.IsMade

theorem MessageKind.isMade_iff {kind : MessageKind} :
    kind.IsMade ↔ (kind.rules.map (·.name)).Nodup := by
  rw [IsMade, make_eq_ok_iff, and_iff_left rfl]

theorem Scanner.isMade_iff {s : Scanner} :
    s.IsMade ↔ s.kinds ≠ [] ∧ (s.kinds.map (·.name)).Nodup ∧ ∀ kind ∈ s.kinds, kind.IsMade := by
  constructor
  · rintro ⟨hmade, hkinds⟩
    obtain ⟨hnonempty, hnodup, -⟩ := make_eq_ok_iff.1 hmade
    exact ⟨hnonempty, hnodup, hkinds⟩
  · rintro ⟨hnonempty, hnodup, hkinds⟩
    exact ⟨make_eq_ok_iff.2 ⟨hnonempty, hnodup, rfl⟩, hkinds⟩

/-! ## All answers of a scanner -/

theorem Scanner.nodup_names_of_make {name : String} {kinds : List MessageKind} {s : Scanner}
    (h : Scanner.make name kinds = .ok s) : (s.kinds.map (·.name)).Nodup := by
  unfold Scanner.make at h
  split at h
  · cases h
  · split at h
    · cases h
    · next hnone =>
        cases h
        exact ((firstRepeated?_eq_none_iff [] _).1 hnone).1

private theorem Scanner.nodup_names_applicable {s : Scanner} (h : (s.kinds.map (·.name)).Nodup)
    (input : Bytes) : ((s.applicable input).map (·.name)).Nodup :=
  h.sublist (List.filter_sublist.map _)

/-- A sink hears of a message only if exactly one kind of the scanner applies. It is then told the
name and the fields up to the first that it refuses, and it is told once how the message ended;
asking the kind itself comes to the same. In all other cases the one call is that there is no
message, and the answer lists the kinds that apply. -/
theorem scan_and_parse_by_applicable_kinds {name : String} {kinds : List MessageKind}
    {s : Scanner} (hs : Scanner.make name kinds = .ok s) (input : Bytes) {σ : Type}
    (sink : Sink σ) (state : σ) :
    (s.applicable input = [] →
      s.scan input = .error .noMatch ∧
      sink.Makes state (fun sink state => s.parse sink input state) [.finish false]
        (.error .noMatch)) ∧
    (∀ kind, s.applicable input = [kind] →
      ∃ fields calls success, kind.Extracts input fields ∧
        sink.Delivers state kind.name fields calls success ∧
        s.scan input = .ok ⟨kind.name, fields⟩ ∧
        sink.Makes state (fun sink state => s.parse sink input state) calls
          (if success then .ok kind.name else .error (.rejected kind.name)) ∧
        sink.Makes state (fun sink state => kind.parse sink input state) calls success) ∧
    (2 ≤ (s.applicable input).length →
      ((s.applicable input).map (·.name)).Nodup ∧
      s.scan input = .error (.ambiguous ((s.applicable input).map (·.name))) ∧
      sink.Makes state (fun sink state => s.parse sink input state) [.finish false]
        (.error (.ambiguous ((s.applicable input).map (·.name))))) := by
  have hmatches : List.Forall₂ (fun k m => k.match? input = some m ∧ m.name = k.name)
      (s.applicable input) (s.allMatches input) := forall₂_allMatches s.kinds input
  refine ⟨?_, ?_, ?_⟩
  · intro hnone
    rw [hnone, List.forall₂_nil_left_iff] at hmatches
    have hscan : s.scan input = .error .noMatch := by rw [Scanner.scan, hmatches]
    exact ⟨hscan, makes_parse_of_error hscan sink state⟩
  · intro kind hone
    have happlies : kind.applies input = true := by
      have hmem : kind ∈ s.applicable input := by rw [hone]; exact List.mem_singleton_self kind
      exact (List.mem_filter.1 hmem).2
    obtain ⟨fields, hmatch, hextracts⟩ := kind.match?_of_applies happlies
    obtain ⟨calls, success, hdelivers⟩ := sink.exists_delivers state kind.name fields
    have hscan : s.scan input = .ok ⟨kind.name, fields⟩ := by
      rw [hone, List.forall₂_cons_left_iff] at hmatches
      obtain ⟨m, ms, hm, hms, hall⟩ := hmatches
      rw [List.forall₂_nil_left_iff] at hms
      have hm' : m = ⟨kind.name, fields⟩ := Option.some.inj (hm.1.symm.trans hmatch)
      rw [Scanner.scan, hall, hms, hm']
    exact ⟨fields, calls, success, hextracts, hdelivers, hscan, makes_parse_of_ok hscan hdelivers,
      makes_parse_kind hmatch hdelivers⟩
  · intro hmany
    have hscan : s.scan input = .error (.ambiguous ((s.applicable input).map (·.name))) := by
      rw [← map_name_of_forall₂ hmatches]
      rw [hmatches.length_eq] at hmany
      rw [Scanner.scan]
      split
      · next h => rw [h] at hmany; simp at hmany
      · next h => rw [h] at hmany; simp at hmany
      · rfl
    exact ⟨Scanner.nodup_names_applicable (Scanner.nodup_names_of_make hs) input, hscan,
      makes_parse_of_error hscan sink state⟩

/-- Takes the first field of each message and refuses the second. The state counts the fields. -/
def Sink.takingOne : Sink Nat where
  start _ _ := 0
  field _ n := (n + 1, n == 0)
  finish _ n := n

/-- Two bytes, each a field of its own. -/
def MessageKind.pair : MessageKind :=
  ⟨"pair", [⟨"first", .offset 0 1, []⟩, ⟨"second", .offset 1 1, []⟩]⟩

/-- What stands between two semicolons. -/
def MessageKind.enclosed : MessageKind := ⟨"enclosed", [⟨"text", .between [0x3B] [0x3B], []⟩]⟩

/-- Two bytes without semicolons are a pair, and a sink that takes only one of them ends the message
without success. -/
theorem scan_and_parse_pair :
    Scanner.make "line" [.pair, .enclosed] = .ok ⟨"line", [.pair, .enclosed]⟩ ∧
    Scanner.applicable ⟨"line", [.pair, .enclosed]⟩ [0x41, 0x42] = [.pair] ∧
    ∃ fields calls success, MessageKind.pair.Extracts [0x41, 0x42] fields ∧
      Sink.takingOne.Delivers 0 "pair" fields calls success ∧
      Scanner.scan ⟨"line", [.pair, .enclosed]⟩ [0x41, 0x42] = .ok ⟨"pair", fields⟩ ∧
      Sink.takingOne.Makes 0
        (fun sink state =>
          Scanner.parse ⟨"line", [.pair, .enclosed]⟩ sink [0x41, 0x42] state)
        calls (if success then .ok "pair" else .error (.rejected "pair")) ∧
      Sink.takingOne.Makes 0 (fun sink state => MessageKind.pair.parse sink [0x41, 0x42] state)
        calls success := by
  have hmake : Scanner.make "line" [.pair, .enclosed] = .ok ⟨"line", [.pair, .enclosed]⟩ := rfl
  have hone : Scanner.applicable ⟨"line", [.pair, .enclosed]⟩ [0x41, 0x42] = [.pair] := rfl
  have h := scan_and_parse_by_applicable_kinds hmake [0x41, 0x42] Sink.takingOne 0
  exact ⟨hmake, hone, h.2.1 .pair hone⟩

end DeviceMessages
