import DeviceMessages.Definition.Parser
import DeviceMessages.Proofs.Definition.Form

/-!
# The language of definition files

`Language.file` is the grammar of definition files as a form, made of one form for each recognizer
of `Definition.Grammar`. Each recognizer is the one of its form (`Grammar.rule_eq` and the others),
and every form is determinate, so that the two readings of the grammar agree on whole files:

* `recognize_eq_ok_iff`: a text is recognized, as certain sections, if and only if it is a layout
  of tokens that the grammar derives for these sections.
-/

namespace DeviceMessages.Definition

namespace Form

variable {α β : Type}

/-- A part that follows a word. -/
def after (w : Word) (f : Form α) : Form α := .map Prod.snd (.pair (.word w) f)

/-- A part that a word follows. -/
def before (f : Form α) (w : Word) : Form α := .map Prod.fst (.pair f (.word w))

/-- Parts with commas between them, at least one. -/
def separated (f : Form α) : Form (List α) :=
  .map (fun parts => parts.1 :: parts.2) (.pair f (.many (after .comma f)))

end Form

/-! ## The forms -/

namespace Language

open Form

def offsetLocation : Form WrittenLocation :=
  named <| map (fun parts => .offset parts.1 parts.2) <|
    after .offset <| after .openParenthesis <|
      pair .number <| after .comma <| before .number .closeParenthesis

def betweenLocation : Form WrittenLocation :=
  named <| map (fun parts => .between parts.1 parts.2) <|
    after .between <| after .openParenthesis <|
      pair (quoted .delimiter) <| after .comma <| before (quoted .delimiter) .closeParenthesis

def location : Form WrittenLocation := named (choice offsetLocation betweenLocation)

def parameters : Form (List (List Char)) :=
  after .openParenthesis <|
    before (optional [] (separated (quoted .parameter))) .closeParenthesis

def validator : Form WrittenValidator :=
  named <| map (fun parts => ⟨parts.1, parts.2⟩) <| pair .name <| optional [] parameters

/-- At least one validator, between brackets. -/
def validators : Form (List WrittenValidator) :=
  named <| after .openBracket <| before (separated validator) .closeBracket

def rule : Form WrittenRule :=
  named <| map (fun parts => ⟨parts.1, parts.2.1, parts.2.2⟩) <|
    pair .name <| after .colon <| pair location <| before (optional [] validators) .semicolon

def message : Form WrittenMessage :=
  named <| map (fun parts => ⟨parts.1, parts.2⟩) <|
    after .message <| pair .name <| after .openBrace <| before (many rule) .closeBrace

def template : Form Section :=
  named <| map (fun parts => .template parts.1 parts.2) <|
    after .template <| pair .name <| after .equals <| before (quoted .template) .semicolon

def scanner : Form Section :=
  named <| map (fun parts => .scanner parts.1 parts.2) <|
    after .scanner <| pair .name <| after .openBrace <| before (many message) .closeBrace

def file : Form (List Section) := many (choice template scanner)

end Language

/-! ## What the forms derive -/

/-- Runs of tokens with commas between them. -/
def commaSeparated : List (List Token) → List Token
  | [] => []
  | us :: uss => us ++ (uss.map (Token.word .comma :: ·)).flatten

/-- Tokens between two words. -/
def enclosed (opening closing : Word) (ts : List Token) : List Token :=
  .word opening :: ts ++ [.word closing]

namespace Form

variable {α : Type} {f : Form α} {a : α} {w : Word} {ts : List Token}

theorem derives_after :
    (f.after w).Derives a ts ↔ ∃ us, f.Derives a us ∧ ts = .word w :: us := by
  constructor
  · rintro ⟨⟨_, a⟩, rfl, _, us, rfl, rfl, h⟩
    exact ⟨us, h, rfl⟩
  · rintro ⟨us, h, rfl⟩
    exact ⟨((), a), rfl, [.word w], us, rfl, rfl, h⟩

theorem derives_before :
    (f.before w).Derives a ts ↔ ∃ us, f.Derives a us ∧ ts = us ++ [.word w] := by
  constructor
  · rintro ⟨⟨a, _⟩, rfl, us, _, rfl, h, rfl⟩
    exact ⟨us, h, rfl⟩
  · rintro ⟨us, h, rfl⟩
    exact ⟨(a, ()), rfl, us, [.word w], rfl, h, rfl⟩

private theorem forall₂_after {as : List α} {tss : List (List Token)} :
    List.Forall₂ (f.after w).Derives as tss ↔
      ∃ uss, List.Forall₂ f.Derives as uss ∧ tss = uss.map (Token.word w :: ·) := by
  constructor
  · intro h
    induction h with
    | nil => exact ⟨[], .nil, rfl⟩
    | cons ht _ ih =>
        obtain ⟨us, hus, rfl⟩ := derives_after.1 ht
        obtain ⟨uss, huss, rfl⟩ := ih
        exact ⟨us :: uss, .cons hus huss, rfl⟩
  · rintro ⟨uss, h, rfl⟩
    induction h with
    | nil => exact .nil
    | cons ht _ ih => exact .cons (derives_after.2 ⟨_, ht, rfl⟩) ih

theorem derives_separated {as : List α} :
    f.separated.Derives as ts ↔
      as ≠ [] ∧ ∃ uss, List.Forall₂ f.Derives as uss ∧ ts = commaSeparated uss := by
  constructor
  · rintro ⟨⟨a, others⟩, rfl, us, _, rfl, hus, tss, htss, rfl⟩
    obtain ⟨uss, huss, rfl⟩ := forall₂_after.1 htss
    exact ⟨List.cons_ne_nil a others, us :: uss, .cons hus huss, rfl⟩
  · rintro ⟨hne, uss, h, rfl⟩
    cases h with
    | nil => exact absurd rfl hne
    | @cons a us others uss hus huss =>
        exact ⟨(a, others), rfl, us, _, rfl, hus, _, forall₂_after.2 ⟨uss, huss, rfl⟩, rfl⟩

private theorem forall₂_quoted {use : Use} {bodies : List (List Char)} {tss : List (List Token)} :
    List.Forall₂ (quoted use).Derives bodies tss ↔
      tss = bodies.map fun body => [Token.quoted use body] := by
  constructor
  · intro h
    induction h with
    | nil => rfl
    | cons ht _ ih => rw [ih, show _ = [_] from ht, List.map_cons]
  · rintro rfl
    induction bodies with
    | nil => exact .nil
    | cons body bodies ih => exact .cons rfl ih

/-- Strings with commas between them, of which there may be none. -/
theorem derives_optional_separated_quoted {use : Use} {bodies : List (List Char)} :
    (optional [] (separated (quoted use))).Derives bodies ts ↔
      ts = commaSeparated (bodies.map fun body => [.quoted use body]) := by
  have hquoted : (separated (quoted use)).Derives bodies ts ↔
      bodies ≠ [] ∧ ts = commaSeparated (bodies.map fun body => [.quoted use body]) := by
    simp [derives_separated, forall₂_quoted]
  rw [Derives, hquoted]
  cases bodies with
  | nil => simp [commaSeparated]
  | cons body bodies => simp

end Form

namespace Language

open Form

variable {ts : List Token}

theorem derives_location {l : WrittenLocation} :
    location.Derives l ts ↔
      (∃ position length, l = .offset position length ∧
        ts = [.word .offset, .word .openParenthesis, .number position, .word .comma,
          .number length, .word .closeParenthesis]) ∨
      ∃ opening closing, l = .between opening closing ∧
        ts = [.word .between, .word .openParenthesis, .quoted .delimiter opening, .word .comma,
          .quoted .delimiter closing, .word .closeParenthesis] := by
  simp [location, offsetLocation, betweenLocation, Form.Derives, derives_after, derives_before,
    Prod.exists, eq_comm]

theorem derives_parameters {ps : List (List Char)} :
    parameters.Derives ps ts ↔
      ts = enclosed .openParenthesis .closeParenthesis
        (commaSeparated (ps.map fun p => [.quoted .parameter p])) := by
  simp [parameters, derives_after, derives_before, derives_optional_separated_quoted, enclosed]

theorem derives_validator {v : WrittenValidator} :
    validator.Derives v ts ↔ ∃ us, ts = .name v.name :: us ∧
      ((v.parameters = [] ∧ us = []) ∨ parameters.Derives v.parameters us) := by
  obtain ⟨name, parameters⟩ := v
  simp [validator, Form.Derives, Prod.exists, and_assoc]

theorem derives_validators {vs : List WrittenValidator} :
    validators.Derives vs ts ↔ vs ≠ [] ∧ ∃ uss, List.Forall₂ validator.Derives vs uss ∧
      ts = enclosed .openBracket .closeBracket (commaSeparated uss) := by
  simp [validators, Form.Derives, derives_after, derives_before, derives_separated, enclosed,
    and_assoc]

theorem derives_rule {r : WrittenRule} :
    rule.Derives r ts ↔ ∃ us vs,
      ts = .name r.name :: .word .colon :: us ++ vs ++ [.word .semicolon] ∧
      location.Derives r.location us ∧
      ((r.validators = [] ∧ vs = []) ∨ validators.Derives r.validators vs) := by
  obtain ⟨name, location, validators⟩ := r
  simp [rule, Form.Derives, derives_after, derives_before, Prod.exists, and_assoc]

theorem derives_message {m : WrittenMessage} :
    message.Derives m ts ↔ ∃ uss, List.Forall₂ rule.Derives m.rules uss ∧
      ts = .word .message :: .name m.name :: enclosed .openBrace .closeBrace uss.flatten := by
  obtain ⟨name, rules⟩ := m
  simp [message, Form.Derives, derives_after, derives_before, Prod.exists, enclosed, and_assoc]

theorem derives_template {s : Section} :
    template.Derives s ts ↔ ∃ name body, s = .template name body ∧
      ts = [.word .template, .name name, .word .equals, .quoted .template body,
        .word .semicolon] := by
  simp [template, Form.Derives, derives_after, derives_before, Prod.exists, eq_comm]

theorem derives_scanner {s : Section} :
    scanner.Derives s ts ↔ ∃ name messages uss, s = .scanner name messages ∧
      List.Forall₂ message.Derives messages uss ∧
      ts = .word .scanner :: .name name :: enclosed .openBrace .closeBrace uss.flatten := by
  simp [scanner, Form.Derives, derives_after, derives_before, Prod.exists, enclosed, eq_comm]

end Language

/-! ## The recognizers of the forms -/

section Recognizers

open Recognizer

variable {α β : Type}

private theorem recognizer_pair (f : Form α) (g : Form β) :
    (Form.pair f g).recognizer =
      f.recognizer >>= fun a => g.recognizer >>= fun b => pure (a, b) := rfl

private theorem recognizer_map (make : α → β) (f : Form α) :
    (Form.map make f).recognizer = f.recognizer >>= fun a => pure (make a) := rfl

private theorem recognizer_after (w : Word) (f : Form α) :
    (f.after w).recognizer = fixed w.text >>= fun _ => f.recognizer := by
  show ((fixed w.text >>= fun a => f.recognizer >>= fun b => pure (a, b)) >>= fun p => pure p.2) = _
  simp only [bind_assoc, pure_bind, bind_pure]

private theorem recognizer_before (f : Form α) (w : Word) :
    (f.before w).recognizer = f.recognizer >>= fun a => fixed w.text >>= fun _ => pure a := by
  show ((f.recognizer >>= fun a => fixed w.text >>= fun b => pure (a, b)) >>= fun p => pure p.1) = _
  simp only [bind_assoc, pure_bind]

private theorem recognizer_separated (f : Form α) :
    f.separated.recognizer = separated (fixed ",") f.recognizer := by
  have hmany : (Form.many (f.after .comma)).recognizer =
      many (fixed "," >>= fun _ => f.recognizer) :=
    congrArg many (recognizer_after .comma f)
  rw [Form.separated, recognizer_map, recognizer_pair, hmany]
  simp only [bind_assoc, pure_bind]
  rfl

private theorem recognizer_optional (default : α) (f : Form α) :
    (Form.optional default f).recognizer = orDefault default f.recognizer := rfl

namespace Grammar

theorem offsetLocation_eq : offsetLocation = Language.offsetLocation.recognizer := by
  show named _ = named _
  simp only [recognizer_after, recognizer_before, recognizer_pair, recognizer_map, bind_assoc,
    pure_bind]
  rfl

theorem betweenLocation_eq : betweenLocation = Language.betweenLocation.recognizer := by
  show named _ = named _
  simp only [recognizer_after, recognizer_before, recognizer_pair, recognizer_map, bind_assoc,
    pure_bind]
  rfl

theorem location_eq : location = Language.location.recognizer := by
  rw [location, offsetLocation_eq, betweenLocation_eq]
  rfl

theorem parameters_eq : parameters = Language.parameters.recognizer := by
  rw [parameters, Language.parameters]
  simp only [recognizer_after, recognizer_before, recognizer_optional, recognizer_separated]
  rfl

theorem validator_eq : validator = Language.validator.recognizer := by
  rw [validator, parameters_eq]
  show named _ = named _
  simp only [recognizer_pair, recognizer_map, bind_assoc, pure_bind]
  rfl

theorem validators_eq : validators = Language.validators.recognizer := by
  rw [validators, validator_eq]
  show named _ = named _
  simp only [recognizer_after, recognizer_before, recognizer_separated]
  rfl

theorem rule_eq : rule = Language.rule.recognizer := by
  rw [rule, location_eq, validators_eq]
  show named _ = named _
  simp only [recognizer_after, recognizer_before, recognizer_pair, recognizer_map, bind_assoc,
    pure_bind]
  rfl

theorem message_eq : message = Language.message.recognizer := by
  rw [message, rule_eq]
  show named _ = named _
  simp only [recognizer_after, recognizer_before, recognizer_pair, recognizer_map, bind_assoc,
    pure_bind]
  rfl

theorem template_eq : template = Language.template.recognizer := by
  show named _ = named _
  simp only [recognizer_after, recognizer_before, recognizer_pair, recognizer_map, bind_assoc,
    pure_bind]
  rfl

theorem scanner_eq : scanner = Language.scanner.recognizer := by
  rw [scanner, message_eq]
  show named _ = named _
  simp only [recognizer_after, recognizer_before, recognizer_pair, recognizer_map, bind_assoc,
    pure_bind]
  rfl

theorem sections_eq : many (orElse template scanner) = Language.file.recognizer := by
  rw [template_eq, scanner_eq]
  rfl

end Grammar

end Recognizers

/-! ## Whole files -/

theorem Language.determinate_file : Language.file.determinate = true := by
  decide

section Files

open Recognizer

variable {text rest : List Char} {sections : List Section}

private theorem result_endOfText_eq_some {u : Unit} :
    (endOfText text).result = some (u, rest) ↔ text = [] ∧ rest = [] := by
  rw [endOfText, result_named]
  show (if text.isEmpty then some ((), []) else none) = some (u, rest) ↔ _
  cases text with
  | nil =>
      rw [List.isEmpty_nil, if_pos rfl, Option.some.injEq, Prod.mk.injEq]
      exact ⟨fun h => ⟨rfl, h.2.symm⟩, fun h => ⟨rfl, h.2.symm⟩⟩
  | cons c cs =>
      rw [List.isEmpty_cons, if_neg Bool.false_ne_true]
      exact ⟨fun h => absurd h (by simp), fun h => absurd h.1 (List.cons_ne_nil c cs)⟩

private theorem result_file_eq_some :
    (Grammar.file text).result = some (sections, rest) ↔
      (Language.file.recognizer (skipTrivia text)).result = some (sections, []) ∧ rest = [] := by
  rw [Grammar.file, Grammar.sections_eq, result_named, result_bind_eq_some]
  constructor
  · rintro ⟨_, start, hstart, h⟩
    rw [result_token, Option.map_some] at hstart
    cases hstart
    obtain ⟨found, mid, hfound, h⟩ := result_bind_eq_some.1 h
    obtain ⟨_, mid', hend, h⟩ := result_bind_eq_some.1 h
    obtain ⟨rfl, rfl⟩ := result_endOfText_eq_some.1 hend
    cases h
    exact ⟨hfound, rfl⟩
  · rintro ⟨hfound, rfl⟩
    refine ⟨(), skipTrivia text, rfl, ?_⟩
    have hend : (endOfText []).result = some ((), []) := result_endOfText_eq_some.2 ⟨rfl, rfl⟩
    exact result_bind_eq_some.2
      ⟨sections, [], hfound, result_bind_eq_some.2 ⟨(), [], hend, rfl⟩⟩

private theorem recognize_eq_ok_iff_file :
    recognize text = .ok sections ↔
      (Language.file.recognizer (skipTrivia text)).result = some (sections, []) := by
  have hfile : recognize text = .ok sections ↔
      ∃ rest, (Grammar.file text).result = some (sections, rest) := by
    unfold recognize
    cases Grammar.file text with
    | mk result misses =>
        cases result with
        | none => simp
        | some taken => simp [Prod.ext_iff]
  rw [hfile]
  constructor
  · rintro ⟨rest, h⟩
    exact (result_file_eq_some.1 h).1
  · intro h
    exact ⟨[], result_file_eq_some.2 ⟨h, rfl⟩⟩

/-- A text is recognized as certain sections if and only if it is a layout of tokens that make
them. -/
theorem recognize_eq_ok_iff :
    recognize text = .ok sections ↔ ∃ ts, Language.file.Derives sections ts ∧ LaidOut ts text := by
  rw [recognize_eq_ok_iff_file]
  constructor
  · intro h
    obtain ⟨ts, hts, hwritten⟩ := Form.written_of_recognizer Language.file h
    obtain ⟨w, htext, hw⟩ := trivia_skipTrivia text
    exact ⟨ts, hts, w, skipTrivia text, htext, hw, hwritten⟩
  · rintro ⟨ts, hts, w, cs, rfl, hw, hwritten⟩
    rw [skipTrivia_of_trivia hw (hwritten.settled settled_nil)]
    refine Form.recognizer_of_derives Language.file Language.determinate_file hts hwritten
      settled_nil ?_
    rintro _ ⟨⟩

end Files

end DeviceMessages.Definition
