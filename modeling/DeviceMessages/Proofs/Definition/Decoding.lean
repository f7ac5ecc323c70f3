import DeviceMessages.Proofs.Definition.Language
import DeviceMessages.Proofs.Definition.Strings

/-!
# Acceptance and the first bad token

What is wrong with the numbers and strings of a recognized file is wrong with a token of its own:
`Token.fault` is the error of a token, and decoding the sections fails with the error of the first
token that has one, in the order of the file (`errorOf_decode`). This is a property of each
decoding function and what it decodes, and it goes from the tokens up to the file because each of
them decodes its parts in the order in which they are written.

* `Token.fault_eq_none_iff`, `Token.fault_eq_some_iff`: the tokens without an error are the good
  ones, and the error of any other is what is wrong with it. Both are told by what a token stands
  for rather than by decoding it.
* `parse_accepts_grammar`: what parsing accepts, and the error of what it does not.
-/

namespace DeviceMessages.Definition

/-! ## Good tokens -/

namespace Token

/-- The error of a token when it is decoded. -/
def fault : Token → Option LeafError
  | .word _ => none
  | .name _ => none
  | .number digits => errorOf (numberOf digits)
  | .quoted .template _ => none
  | .quoted .delimiter body => errorOf (bytesOf body)
  | .quoted .parameter body => errorOf (textOf body)

/-- Numbers have to fit 64 bits, delimiters to stand for bytes, and parameters for the UTF-8 form of
a text. -/
def IsGood : Token → Prop
  | .word _ => True
  | .name _ => True
  | .number digits => Decimal.valueOf digits < Decimal.wordSize
  | .quoted .template _ => True
  | .quoted .delimiter body => ∃ bytes, Spells body bytes
  | .quoted .parameter body => ∃ text, Spells body (Text.utf8 text)

/-- What is wrong with a token that is not good. -/
def FailsWith : Token → LeafError → Prop
  | .word _, _ => False
  | .name _, _ => False
  | .number digits, e =>
    Decimal.wordSize ≤ Decimal.valueOf digits ∧ e = .numberOutOfRange (String.ofList digits)
  | .quoted .template _, _ => False
  | .quoted .delimiter body, e => FirstBadEscape body e
  | .quoted .parameter body, e =>
    FirstBadEscape body e ∨ ∃ bytes, Spells body bytes ∧ (∀ text, bytes ≠ Text.utf8 text) ∧
      e = .notText (String.ofList body)

end Token

/-- A token is without an error if and only if it is good. -/
theorem Token.fault_eq_none_iff {t : Token} : t.fault = none ↔ t.IsGood := by
  cases t with
  | word w => exact iff_of_true rfl trivial
  | name text => exact iff_of_true rfl trivial
  | number digits =>
      rw [fault, errorOf_eq_none_iff, IsGood]
      simp only [numberOf_eq_ok_iff, exists_eq_left]
  | quoted use body =>
      cases use with
      | template => exact iff_of_true rfl trivial
      | delimiter => simp only [fault, errorOf_eq_none_iff, IsGood, bytesOf_eq_ok_iff]
      | parameter => simp only [fault, errorOf_eq_none_iff, IsGood, textOf_eq_ok_iff]

/-- The error of a token is what is wrong with it. -/
theorem Token.fault_eq_some_iff {t : Token} {e : LeafError} : t.fault = some e ↔ t.FailsWith e := by
  cases t with
  | word w => exact iff_of_false (fun h => by cases h) id
  | name text => exact iff_of_false (fun h => by cases h) id
  | number digits => rw [fault, errorOf_eq_some_iff, numberOf_eq_error_iff, FailsWith]
  | quoted use body =>
      cases use with
      | template => exact iff_of_false (fun h => by cases h) id
      | delimiter => rw [fault, errorOf_eq_some_iff, bytesOf_eq_error_iff, FailsWith]
      | parameter => rw [fault, errorOf_eq_some_iff, textOf_eq_error_iff, FailsWith]

/-! ## The first error -/

/-- The error of the first token that has one. -/
def firstFault (ts : List Token) : Option LeafError := ts.findSome? Token.fault

theorem firstFault_append (us vs : List Token) :
    firstFault (us ++ vs) = (firstFault us).or (firstFault vs) := List.findSome?_append

@[simp] theorem firstFault_nil : firstFault [] = none := rfl

theorem firstFault_cons (t : Token) (ts : List Token) :
    firstFault (t :: ts) = t.fault.or (firstFault ts) := by
  rw [firstFault, List.findSome?_cons]
  cases t.fault <;> rfl

@[simp] theorem firstFault_word_cons (w : Word) (ts : List Token) :
    firstFault (.word w :: ts) = firstFault ts := rfl

@[simp] theorem firstFault_name_cons (text : String) (ts : List Token) :
    firstFault (.name text :: ts) = firstFault ts := rfl

theorem firstFault_commaSeparated (uss : List (List Token)) :
    firstFault (commaSeparated uss) = firstFault uss.flatten := by
  have hcommas : ∀ uss : List (List Token),
      firstFault (uss.map (Token.word .comma :: ·)).flatten = firstFault uss.flatten := by
    intro uss
    induction uss with
    | nil => rfl
    | cons us uss ih =>
        rw [List.map_cons, List.flatten_cons, List.cons_append, firstFault_word_cons,
          firstFault_append, ih, List.flatten_cons, firstFault_append]
  cases uss with
  | nil => rfl
  | cons us uss =>
      rw [commaSeparated, firstFault_append, hcommas, List.flatten_cons, firstFault_append]

@[simp] theorem firstFault_enclosed (opening closing : Word) (ts : List Token) :
    firstFault (enclosed opening closing ts) = firstFault ts := by
  rw [enclosed, firstFault_append, firstFault_word_cons, firstFault_word_cons, firstFault_nil,
    Option.or_none]

/-- A run of parts fails with the error of the first token, if each part does. -/
private theorem errorOf_mapM {α β : Type} {decode : α → Except LeafError β}
    {R : α → List Token → Prop} {as : List α} {uss : List (List Token)}
    (h : List.Forall₂ R as uss)
    (hdecode : ∀ a us, R a us → errorOf (decode a) = firstFault us) :
    errorOf (as.mapM decode) = firstFault uss.flatten := by
  induction h with
  | nil => rfl
  | @cons a us as uss hus _ ih =>
      rw [List.mapM_cons, List.flatten_cons, firstFault_append, ← hdecode a us hus, ← ih]
      exact errorOf_bind fun b => errorOf_map

/-! ## The sections in order -/

section Sections

variable {ts : List Token}

theorem errorOf_decodeLocation {l : WrittenLocation} (h : Language.location.Derives l ts) :
    errorOf (decodeLocation l) = firstFault ts := by
  rcases Language.derives_location.1 h with
    ⟨position, length, rfl, rfl⟩ | ⟨opening, closing, rfl, rfl⟩
  · rw [decodeLocation, errorOf_bind fun _ => errorOf_map]
    simp only [firstFault_cons, firstFault_nil, Token.fault, Option.or_none, Option.none_or]
  · rw [decodeLocation, errorOf_bind fun _ => errorOf_map]
    simp only [firstFault_cons, firstFault_nil, Token.fault, Option.or_none, Option.none_or]

theorem errorOf_decodeValidator {v : WrittenValidator} (h : Language.validator.Derives v ts) :
    errorOf (decodeValidator v) = firstFault ts := by
  have hparameters : errorOf (v.parameters.mapM textOf) =
      firstFault (v.parameters.map fun p => [Token.quoted .parameter p]).flatten := by
    refine errorOf_mapM (R := fun p us => us = [.quoted .parameter p]) ?_ ?_
    · rw [List.forall₂_map_right_iff, List.forall₂_same]
      exact fun _ _ => rfl
    · rintro p _ rfl
      rw [firstFault_cons, firstFault_nil, Option.or_none, Token.fault]
  obtain ⟨us, rfl, hus⟩ := Language.derives_validator.1 h
  rw [decodeValidator, errorOf_map, hparameters, firstFault_name_cons]
  rcases hus with ⟨hnil, rfl⟩ | hus
  · rw [hnil]
    rfl
  · rw [Language.derives_parameters.1 hus, firstFault_enclosed, firstFault_commaSeparated]

private theorem errorOf_decodeValidators {vs : List WrittenValidator}
    (h : (vs = [] ∧ ts = []) ∨ Language.validators.Derives vs ts) :
    errorOf (vs.mapM decodeValidator) = firstFault ts := by
  rcases h with ⟨rfl, rfl⟩ | h
  · rfl
  · obtain ⟨_, uss, huss, rfl⟩ := Language.derives_validators.1 h
    rw [errorOf_mapM huss fun _ _ => errorOf_decodeValidator, firstFault_enclosed,
      firstFault_commaSeparated]

theorem errorOf_decodeRule {r : WrittenRule} (h : Language.rule.Derives r ts) :
    errorOf (decodeRule r) = firstFault ts := by
  obtain ⟨us, vs, rfl, hlocation, hvalidators⟩ := Language.derives_rule.1 h
  rw [decodeRule, errorOf_bind fun _ => errorOf_map, errorOf_decodeLocation hlocation,
    errorOf_decodeValidators hvalidators]
  simp only [List.cons_append, firstFault_name_cons, firstFault_word_cons, firstFault_append,
    firstFault_nil, Option.or_none]

theorem errorOf_decodeMessage {m : WrittenMessage} (h : Language.message.Derives m ts) :
    errorOf (decodeMessage m) = firstFault ts := by
  obtain ⟨uss, huss, rfl⟩ := Language.derives_message.1 h
  rw [decodeMessage, errorOf_map, errorOf_mapM huss fun _ _ => errorOf_decodeRule,
    firstFault_word_cons, firstFault_name_cons, firstFault_enclosed]

theorem errorOf_scannersOf {sections : List Section} (h : Language.file.Derives sections ts) :
    errorOf (scannersOf sections) = firstFault ts := by
  obtain ⟨tss, htss, rfl⟩ := h
  induction htss with
  | nil => rfl
  | @cons s us sections tss hus _ ih =>
      rw [List.flatten_cons, firstFault_append, ← ih]
      rcases hus with htemplate | hscanner
      · obtain ⟨name, body, rfl, rfl⟩ := Language.derives_template.1 htemplate
        rw [scannersOf]
        rfl
      · obtain ⟨name, messages, uss, rfl, huss, rfl⟩ := Language.derives_scanner.1 hscanner
        rw [scannersOf, errorOf_bind fun _ => errorOf_map,
          errorOf_mapM huss fun _ _ => errorOf_decodeMessage, firstFault_word_cons,
          firstFault_name_cons, firstFault_enclosed]

/-- Decoding sections fails with the error of the first token that has one. -/
theorem errorOf_decode {sections : List Section} (h : Language.file.Derives sections ts) :
    errorOf (decode sections) = firstFault ts := by
  rw [decode, errorOf_map, errorOf_scannersOf h]

end Sections

/-! ## Acceptance -/

variable {source : String} {sections : List Section} {ts : List Token}

private theorem parse_of_recognize (h : recognize source.toList = .ok sections) :
    parse source = (decode sections).mapError DefinitionError.leaf := by
  unfold parse
  cases hdecode : decode sections with
  | error e => simp only [h, hdecode]; rfl
  | ok definition => simp only [h, hdecode]; rfl

private theorem parse_of_recognize_error {before : Nat}
    (h : recognize source.toList = .error before) :
    parse source = .error (.form (Position.after (source.toList.take before))) := by
  unfold parse
  rw [h]

private theorem parse_eq_error_form_iff :
    (∃ position, parse source = .error (.form position)) ↔
      ¬ ∃ sections, recognize source.toList = .ok sections := by
  cases h : recognize source.toList with
  | error before =>
      refine iff_of_true ⟨_, parse_of_recognize_error h⟩ ?_
      rintro ⟨_, ⟨⟩⟩
  | ok sections =>
      refine iff_of_false ?_ (fun hnone => hnone ⟨sections, rfl⟩)
      rintro ⟨position, hform⟩
      rw [parse_of_recognize h] at hform
      cases hdecode : decode sections with
      | error e => rw [hdecode] at hform; cases hform
      | ok definition => rw [hdecode] at hform; cases hform

/-- The form of a text is accepted if and only if it is a layout of tokens that the grammar derives,
in the free reading of the grammar. Whatever such tokens the text is read as, it then has a meaning
if and only if all of them are good, and otherwise the error is that of the first that is not. -/
theorem parse_accepts_grammar (source : String) :
    ((∃ sections, recognize source.toList = .ok sections) ↔
      ∃ sections ts, Language.file.Derives sections ts ∧ LaidOut ts source.toList) ∧
    ((∃ position, parse source = .error (.form position)) ↔
      ¬ ∃ sections ts, Language.file.Derives sections ts ∧ LaidOut ts source.toList) ∧
    ∀ sections ts, Language.file.Derives sections ts → LaidOut ts source.toList →
      ((∃ definition, parse source = .ok definition) ↔ ∀ t ∈ ts, t.IsGood) ∧
      ∀ before t after, ts = before ++ t :: after → (∀ u ∈ before, u.IsGood) → ¬ t.IsGood →
        ∃ e, t.FailsWith e ∧ parse source = .error (.leaf e) := by
  have hrecognize : (∃ sections, recognize source.toList = .ok sections) ↔
      ∃ sections ts, Language.file.Derives sections ts ∧ LaidOut ts source.toList := by
    simp only [recognize_eq_ok_iff]
  have hform : (∃ position, parse source = .error (.form position)) ↔
      ¬ ∃ sections ts, Language.file.Derives sections ts ∧ LaidOut ts source.toList := by
    rw [parse_eq_error_form_iff, hrecognize]
  refine ⟨hrecognize, hform, ?_⟩
  intro sections ts hts hlaid
  have hparse := parse_of_recognize (recognize_eq_ok_iff.2 ⟨ts, hts, hlaid⟩)
  have herror : errorOf (parse source) = (firstFault ts).map DefinitionError.leaf := by
    rw [hparse, ← errorOf_decode hts]
    cases decode sections <;> rfl
  constructor
  · rw [← errorOf_eq_none_iff, herror, Option.map_eq_none_iff, firstFault,
      List.findSome?_eq_none_iff]
    simp only [Token.fault_eq_none_iff]
  · intro before t after hsplit hbefore ht
    obtain ⟨e, he⟩ := Option.ne_none_iff_exists'.1 (mt Token.fault_eq_none_iff.1 ht)
    have hnone : firstFault before = none :=
      List.findSome?_eq_none_iff.2 fun u hu => Token.fault_eq_none_iff.2 (hbefore u hu)
    have hfirst : firstFault ts = some e := by
      rw [hsplit, firstFault_append, hnone, firstFault_cons, he]
      rfl
    refine ⟨e, Token.fault_eq_some_iff.1 he, errorOf_eq_some_iff.1 ?_⟩
    rw [herror, hfirst]
    rfl

/-- A rule with a position that does not fit 64 bits. -/
def overlongRule : WrittenRule := ⟨"r", .offset "18446744073709551616".toList ['1'], []⟩

def overlongRuleTokens : List Token :=
  [.name "r", .word .colon, .word .offset, .word .openParenthesis,
    .number "18446744073709551616".toList, .word .comma, .number ['1'], .word .closeParenthesis,
    .word .semicolon]

def overlongTokens : List Token :=
  .word .scanner :: .name "s" :: enclosed .openBrace .closeBrace
    (.word .message :: .name "m" :: enclosed .openBrace .closeBrace overlongRuleTokens)

private theorem derives_overlongTokens :
    Language.file.Derives [.scanner "s" [⟨"m", [overlongRule]⟩]] overlongTokens := by
  have hrule : Language.rule.Derives overlongRule overlongRuleTokens :=
    Language.derives_rule.2
      ⟨_, [], rfl, Language.derives_location.2 (.inl ⟨_, _, rfl, rfl⟩), .inl ⟨rfl, rfl⟩⟩
  have hmessage : Language.message.Derives ⟨"m", [overlongRule]⟩
      (.word .message :: .name "m" :: enclosed .openBrace .closeBrace overlongRuleTokens) :=
    Language.derives_message.2 ⟨[overlongRuleTokens], .cons hrule .nil, rfl⟩
  have hscanner : Language.scanner.Derives (.scanner "s" [⟨"m", [overlongRule]⟩]) overlongTokens :=
    Language.derives_scanner.2 ⟨"s", _, [_], rfl, .cons hmessage .nil, rfl⟩
  exact ⟨[overlongTokens], .cons (.inr hscanner) .nil, rfl⟩

/-- The position is the first bad token, so the error is that it is too large. -/
theorem parse_overlongTokens :
    parse (String.ofList (layOut (fun _ => [' ']) overlongTokens)) =
      .error (.leaf (.numberOutOfRange "18446744073709551616")) := by
  have hvalid : ∀ t ∈ overlongTokens, t.IsValid := by
    have hname : ∀ c, isNameStart c = true → IsName [c] := fun c hc => isName_cons hc rfl
    simp [overlongTokens, overlongRuleTokens, enclosed, Token.IsValid, hname 's' rfl, hname 'm' rfl,
      hname 'r' rfl]
  have hlaid : LaidOut overlongTokens
      (String.ofList (layOut (fun _ => [' ']) overlongTokens)).toList := by
    rw [String.toList_ofList]
    exact laidOut_layOut (fun _ => .space rfl .none) hvalid
  have hgood : ∀ t ∈ overlongTokens.take 10, t.IsGood := by
    simp [overlongTokens, overlongRuleTokens, enclosed, Token.IsGood]
  have hbad : ¬ (Token.number "18446744073709551616".toList).IsGood := by
    show ¬ Decimal.valueOf "18446744073709551616".toList < Decimal.wordSize
    decide
  obtain ⟨e, he, hparse⟩ :=
    ((parse_accepts_grammar _).2.2 _ _ derives_overlongTokens hlaid).2 _ _ _ rfl hgood hbad
  rw [hparse, he.2, String.ofList_toList]

end DeviceMessages.Definition
