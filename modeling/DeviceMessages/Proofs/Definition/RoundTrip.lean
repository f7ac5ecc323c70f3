import DeviceMessages.Proofs.Definition.Printing

/-!
# Printing and parsing

What can be printed is told by `IsPrintable`: names are names, numbers fit 64 bits, and the texts of
templates have no loose backslash. Delimiters and parameters may be anything.

* `parse_print`: a printable definition is read back from its text, in any style.
* `isPrintable_of_parse`: every definition that is parsed is printable.

Both go through the tokens. Printing is the inverse of decoding on sections, its tokens are derived
for the sections and valid, and the sections of a text are the only ones of which it is a layout.
For the other direction, names are tokens of the text, so they have the form of names.
-/

namespace DeviceMessages.Definition

/-! ## Printable definitions -/

/-- The numbers of a location fit 64 bits. -/
def IsPrintableLocation : Location → Prop
  | .offset position length => position < Decimal.wordSize ∧ length < Decimal.wordSize
  | .between _ _ => True

structure IsPrintableRule (r : RuleDefinition) : Prop where
  name : IsName r.name.toList
  location : IsPrintableLocation r.location
  validators : ∀ v ∈ r.validators, IsName v.name.toList

structure IsPrintableMessage (m : MessageDefinition) : Prop where
  name : IsName m.name.toList
  rules : ∀ r ∈ m.rules, IsPrintableRule r

structure IsPrintableScanner (s : ScannerDefinition) : Prop where
  name : IsName s.name.toList
  messages : ∀ m ∈ s.messages, IsPrintableMessage m

structure IsPrintableTemplate (t : TemplateDefinition) : Prop where
  name : IsName t.name.toList
  source : IsSource t.source.toList

/-- A definition that can be printed. -/
structure IsPrintable (d : Definition) : Prop where
  templates : ∀ t ∈ d.templates, IsPrintableTemplate t
  scanners : ∀ s ∈ d.scanners, IsPrintableScanner s

/-! ## Valid tokens -/

/-- All tokens have the form of their kind. -/
def AllValid (ts : List Token) : Prop := ∀ t ∈ ts, t.IsValid

section AllValid

variable {ts us : List Token} {uss : List (List Token)}

@[simp] theorem allValid_nil : AllValid [] := fun _ h => absurd h List.not_mem_nil

@[simp] theorem allValid_cons {t : Token} : AllValid (t :: ts) ↔ t.IsValid ∧ AllValid ts :=
  List.forall_mem_cons

@[simp] theorem isValid_word (w : Word) : (Token.word w).IsValid := trivial

@[simp] theorem allValid_append : AllValid (ts ++ us) ↔ AllValid ts ∧ AllValid us :=
  List.forall_mem_append

theorem allValid_flatten : AllValid uss.flatten ↔ ∀ us ∈ uss, AllValid us := by
  induction uss with
  | nil => simp
  | cons us uss ih => rw [List.flatten_cons, allValid_append, ih, List.forall_mem_cons]

@[simp] theorem allValid_commaSeparated : AllValid (commaSeparated uss) ↔ AllValid uss.flatten := by
  have hcommas : ∀ uss : List (List Token),
      AllValid (uss.map (Token.word .comma :: ·)).flatten ↔ AllValid uss.flatten := by
    intro uss
    induction uss with
    | nil => rfl
    | cons us uss ih => simp [ih]
  cases uss with
  | nil => rfl
  | cons us uss => rw [commaSeparated, allValid_append, hcommas, List.flatten_cons, allValid_append]

@[simp] theorem allValid_enclosed {opening closing : Word} :
    AllValid (enclosed opening closing ts) ↔ AllValid ts := by
  simp [enclosed]

end AllValid

/-! ## What is printed is valid -/

section Valid

variable (style : Style)

private theorem allValid_map {α β : Type} {write : α → β} {tokens : β → List Token} {as : List α}
    (h : ∀ a ∈ as, AllValid (tokens (write a))) :
    AllValid ((as.map write).map tokens).flatten := by
  rw [allValid_flatten]
  simpa using h

private theorem isValid_number (n : Nat) : (Token.number (Decimal.digits n)).IsValid :=
  ⟨Nat.toDigits_ne_nil, fun _ hd => Decimal.isDigit_of_mem_digits hd⟩

private theorem allValid_locationTokens (l : Location) :
    AllValid (locationTokens (writtenLocation style l)) := by
  cases l with
  | offset position length =>
      have hposition := isValid_number position
      have hlength := isValid_number length
      simp [writtenLocation, locationTokens, hposition, hlength]
  | between opening closing =>
      have hopening := isBody_writtenBytes style.upperCase opening
      have hclosing := isBody_writtenBytes style.upperCase closing
      simp [writtenLocation, locationTokens, Token.IsValid, hopening, hclosing]

private theorem allValid_parametersTokens (parameters : List String) :
    AllValid (parametersTokens style (parameters.map writtenText)) := by
  unfold parametersTokens
  split
  · exact allValid_nil
  · have hstrings : AllValid
        ((parameters.map writtenText).map fun p => [Token.quoted .parameter p]).flatten :=
      allValid_map fun p _ => allValid_cons.2 ⟨isBody_writtenText p, allValid_nil⟩
    rwa [allValid_enclosed, allValid_commaSeparated]

private theorem allValid_validatorTokens {v : ValidatorDefinition} (h : IsName v.name.toList) :
    AllValid (validatorTokens style (writtenValidator v)) :=
  allValid_cons.2 ⟨h, allValid_parametersTokens style v.parameters⟩

private theorem allValid_validatorsTokens {vs : List ValidatorDefinition}
    (h : ∀ v ∈ vs, IsName v.name.toList) :
    AllValid (validatorsTokens style (vs.map writtenValidator)) := by
  unfold validatorsTokens
  split
  · exact allValid_nil
  · have hvs := allValid_map fun v hv => allValid_validatorTokens style (h v hv)
    rwa [allValid_enclosed, allValid_commaSeparated]

private theorem allValid_ruleTokens {r : RuleDefinition} (h : IsPrintableRule r) :
    AllValid (ruleTokens style (writtenRule style r)) := by
  have hlocation := allValid_locationTokens style r.location
  have hvalidators := allValid_validatorsTokens style h.validators
  simp [ruleTokens, writtenRule, Token.IsValid, h.name, hlocation, hvalidators]

private theorem allValid_messageTokens {m : MessageDefinition} (h : IsPrintableMessage m) :
    AllValid (messageTokens style (writtenMessage style m)) := by
  have hrules := allValid_map fun r hr => allValid_ruleTokens style (h.rules r hr)
  rw [messageTokens, writtenMessage, allValid_cons, allValid_cons, allValid_enclosed]
  exact ⟨isValid_word _, h.name, hrules⟩

private theorem allValid_writtenTemplate {t : TemplateDefinition} (h : IsPrintableTemplate t) :
    AllValid (sectionTokens style (writtenTemplate t)) := by
  have hname : (Token.name t.name).IsValid := h.name
  have hbody : (Token.quoted .template (writtenSource t.source.toList)).IsValid :=
    isBody_writtenSource h.source
  simp [sectionTokens, writtenTemplate, hname, hbody]

private theorem allValid_writtenScanner {s : ScannerDefinition} (h : IsPrintableScanner s) :
    AllValid (sectionTokens style (writtenScanner style s)) := by
  have hmessages := allValid_map fun m hm => allValid_messageTokens style (h.messages m hm)
  rw [writtenScanner, sectionTokens, allValid_cons, allValid_cons, allValid_enclosed]
  exact ⟨isValid_word _, h.name, hmessages⟩

/-- The tokens of a printable definition are valid. -/
theorem allValid_fileTokens {d : Definition} (h : IsPrintable d) :
    AllValid (fileTokens style (writtenSections style d)) := by
  rw [fileTokens, writtenSections, List.map_append, List.flatten_append, allValid_append]
  exact ⟨allValid_map fun t ht => allValid_writtenTemplate style (h.templates t ht),
    allValid_map fun s hs => allValid_writtenScanner style (h.scanners s hs)⟩

end Valid

/-! ## Printing is the inverse of decoding -/

section Inverse

variable (style : Style)

theorem decodeLocation_writtenLocation {l : Location} (h : IsPrintableLocation l) :
    decodeLocation (writtenLocation style l) = .ok l := by
  cases l with
  | offset position length =>
      have hnumber : ∀ n, n < Decimal.wordSize → numberOf (Decimal.digits n) = .ok n := by
        intro n hn
        exact numberOf_eq_ok_iff.2 ⟨(Decimal.valueOf_digits n).symm, hn⟩
      rw [writtenLocation, decodeLocation, hnumber position h.1, hnumber length h.2]
      rfl
  | between opening closing =>
      have hbytes : ∀ bytes, bytesOf (writtenBytes style.upperCase bytes) = .ok bytes := by
        intro bytes
        exact bytesOf_eq_ok_iff.2 (spells_writtenBytes style.upperCase bytes)
      rw [writtenLocation, decodeLocation, hbytes opening, hbytes closing]
      rfl

theorem decodeValidator_writtenValidator (v : ValidatorDefinition) :
    decodeValidator (writtenValidator v) = .ok v := by
  have hparameters : (v.parameters.map writtenText).mapM textOf = .ok v.parameters :=
    mapM_map_eq_ok fun p _ => textOf_eq_ok_iff.2 (spells_writtenText p)
  rw [writtenValidator, decodeValidator, hparameters]
  rfl

theorem decodeRule_writtenRule {r : RuleDefinition} (h : IsPrintableRule r) :
    decodeRule (writtenRule style r) = .ok r := by
  have hlocation := decodeLocation_writtenLocation style h.location
  have hvalidators : (r.validators.map writtenValidator).mapM decodeValidator = .ok r.validators :=
    mapM_map_eq_ok fun v _ => decodeValidator_writtenValidator v
  rw [writtenRule, decodeRule, hlocation, hvalidators]
  rfl

theorem decodeMessage_writtenMessage {m : MessageDefinition} (h : IsPrintableMessage m) :
    decodeMessage (writtenMessage style m) = .ok m := by
  have hrules : (m.rules.map (writtenRule style)).mapM decodeRule = .ok m.rules :=
    mapM_map_eq_ok fun r hr => decodeRule_writtenRule style (h.rules r hr)
  rw [writtenMessage, decodeMessage, hrules]
  rfl

private theorem templatesOf_writtenTemplates {ts : List TemplateDefinition}
    (h : ∀ t ∈ ts, IsPrintableTemplate t) (others : List Section) :
    templatesOf (ts.map writtenTemplate ++ others) = ts ++ templatesOf others := by
  induction ts with
  | nil => rfl
  | cons t ts ih =>
      obtain ⟨ht, hts⟩ := List.forall_mem_cons.1 h
      have hsource : String.ofList (templateText (writtenSource t.source.toList)) = t.source := by
        rw [templateText_writtenSource ht.source, String.ofList_toList]
      show ⟨t.name, String.ofList (templateText (writtenSource t.source.toList))⟩ ::
        templatesOf (ts.map writtenTemplate ++ others) = _
      rw [hsource, ih hts, List.cons_append]

private theorem templatesOf_writtenScanners (ss : List ScannerDefinition) :
    templatesOf (ss.map (writtenScanner style)) = [] := by
  induction ss with
  | nil => rfl
  | cons s ss ih => exact ih

private theorem scannersOf_writtenTemplates (ts : List TemplateDefinition)
    (others : List Section) :
    scannersOf (ts.map writtenTemplate ++ others) = scannersOf others := by
  induction ts with
  | nil => rfl
  | cons t ts ih => exact ih

private theorem scannersOf_writtenScanners {ss : List ScannerDefinition}
    (h : ∀ s ∈ ss, IsPrintableScanner s) :
    scannersOf (ss.map (writtenScanner style)) = .ok ss := by
  induction ss with
  | nil => rfl
  | cons s ss ih =>
      obtain ⟨hs, hss⟩ := List.forall_mem_cons.1 h
      have hmessages : (s.messages.map (writtenMessage style)).mapM decodeMessage =
          .ok s.messages :=
        mapM_map_eq_ok fun m hm => decodeMessage_writtenMessage style (hs.messages m hm)
      rw [List.map_cons, writtenScanner, scannersOf, hmessages, ih hss]
      rfl

/-- The sections of a printable definition mean the definition. -/
theorem decode_writtenSections {d : Definition} (h : IsPrintable d) :
    decode (writtenSections style d) = .ok d := by
  rw [decode, writtenSections, templatesOf_writtenTemplates h.templates,
    templatesOf_writtenScanners, List.append_nil, scannersOf_writtenTemplates,
    scannersOf_writtenScanners style h.scanners]
  rfl

end Inverse

/-! ## What is parsed is printable -/

section Printable

/-- What holds of the meaning of each part holds of all that a run of parts means. -/
private theorem forall_of_mapM {α β : Type} {R : α → List Token → Prop}
    {decode : α → Except LeafError β} {P : β → Prop} {as : List α} {uss : List (List Token)}
    {bs : List β} (h : List.Forall₂ R as uss) (huss : AllValid uss.flatten)
    (hbs : as.mapM decode = .ok bs)
    (hdecode : ∀ {a us b}, R a us → AllValid us → decode a = .ok b → P b) : ∀ b ∈ bs, P b := by
  induction h generalizing bs with
  | nil =>
      cases hbs
      exact fun _ h => absurd h List.not_mem_nil
  | cons hus _ ih =>
      rw [List.flatten_cons, allValid_append] at huss
      rw [List.mapM_cons] at hbs
      obtain ⟨b, hb, hbs⟩ := exists_of_bind_eq_ok hbs
      obtain ⟨others, hothers, hbs⟩ := exists_of_bind_eq_ok hbs
      cases hbs
      exact List.forall_mem_cons.2 ⟨hdecode hus huss.1 hb, ih huss.2 hothers⟩

variable {ts : List Token}

private theorem isPrintableLocation_of_decode {l : WrittenLocation} {l' : Location}
    (h : decodeLocation l = .ok l') : IsPrintableLocation l' := by
  cases l with
  | offset position length =>
      obtain ⟨p, hp, h⟩ := exists_of_bind_eq_ok h
      obtain ⟨n, hn, h⟩ := exists_of_bind_eq_ok h
      cases h
      exact ⟨(numberOf_eq_ok_iff.1 hp).2, (numberOf_eq_ok_iff.1 hn).2⟩
  | between opening closing =>
      obtain ⟨o, _, h⟩ := exists_of_bind_eq_ok h
      obtain ⟨c, _, h⟩ := exists_of_bind_eq_ok h
      cases h
      trivial

private theorem isName_of_decodeValidator {v : WrittenValidator} {v' : ValidatorDefinition}
    (hv : Language.validator.Derives v ts) (hts : AllValid ts)
    (h : decodeValidator v = .ok v') : IsName v'.name.toList := by
  obtain ⟨us, rfl, _⟩ := Language.derives_validator.1 hv
  obtain ⟨parameters, _, h⟩ := exists_of_bind_eq_ok h
  cases h
  exact (allValid_cons.1 hts).1

private theorem isPrintableRule_of_decode {r : WrittenRule} {r' : RuleDefinition}
    (hr : Language.rule.Derives r ts) (hts : AllValid ts) (h : decodeRule r = .ok r') :
    IsPrintableRule r' := by
  obtain ⟨us, vs, rfl, _, hvs⟩ := Language.derives_rule.1 hr
  obtain ⟨location, hlocation, h⟩ := exists_of_bind_eq_ok h
  obtain ⟨validators, hvalidators, h⟩ := exists_of_bind_eq_ok h
  cases h
  simp only [List.cons_append, allValid_cons, allValid_append] at hts
  obtain ⟨hname, _, ⟨_, hts⟩, _⟩ := hts
  refine ⟨hname, isPrintableLocation_of_decode hlocation, ?_⟩
  rcases hvs with ⟨hnil, rfl⟩ | hvs
  · rw [hnil] at hvalidators
    cases hvalidators
    exact fun _ h => absurd h List.not_mem_nil
  · obtain ⟨_, uss, huss, rfl⟩ := Language.derives_validators.1 hvs
    rw [allValid_enclosed, allValid_commaSeparated] at hts
    exact forall_of_mapM huss hts hvalidators isName_of_decodeValidator

private theorem isPrintableMessage_of_decode {m : WrittenMessage} {m' : MessageDefinition}
    (hm : Language.message.Derives m ts) (hts : AllValid ts) (h : decodeMessage m = .ok m') :
    IsPrintableMessage m' := by
  obtain ⟨uss, huss, rfl⟩ := Language.derives_message.1 hm
  obtain ⟨rules, hrules, h⟩ := exists_of_bind_eq_ok h
  cases h
  rw [allValid_cons, allValid_cons, allValid_enclosed] at hts
  obtain ⟨_, hname, hts⟩ := hts
  exact ⟨hname, forall_of_mapM huss hts hrules isPrintableRule_of_decode⟩

private theorem isPrintableTemplate_of_mem {sections : List Section} {tss : List (List Token)}
    (h : List.Forall₂ (Form.choice Language.template Language.scanner).Derives sections tss)
    (htss : AllValid tss.flatten) : ∀ t ∈ templatesOf sections, IsPrintableTemplate t := by
  induction h with
  | nil => exact fun _ h => absurd h List.not_mem_nil
  | cons hus _ ih =>
      rw [List.flatten_cons, allValid_append] at htss
      rcases hus with htemplate | hscanner
      · obtain ⟨name, body, rfl, rfl⟩ := Language.derives_template.1 htemplate
        simp only [allValid_cons] at htss
        have hsource : IsSource (String.ofList (templateText body)).toList := by
          rw [String.toList_ofList]
          exact isSource_templateText htss.1.2.2.2.1
        exact List.forall_mem_cons.2 ⟨⟨htss.1.2.1, hsource⟩, ih htss.2⟩
      · obtain ⟨name, messages, uss, rfl, _, rfl⟩ := Language.derives_scanner.1 hscanner
        exact ih htss.2

private theorem isPrintableScanner_of_mem {sections : List Section} {tss : List (List Token)}
    {scanners : List ScannerDefinition}
    (h : List.Forall₂ (Form.choice Language.template Language.scanner).Derives sections tss)
    (htss : AllValid tss.flatten) (hscanners : scannersOf sections = .ok scanners) :
    ∀ s ∈ scanners, IsPrintableScanner s := by
  induction h generalizing scanners with
  | nil =>
      cases hscanners
      exact fun _ h => absurd h List.not_mem_nil
  | cons hus _ ih =>
      rw [List.flatten_cons, allValid_append] at htss
      rcases hus with htemplate | hscanner
      · obtain ⟨name, body, rfl, rfl⟩ := Language.derives_template.1 htemplate
        exact ih htss.2 hscanners
      · obtain ⟨name, messages, uss, rfl, huss, rfl⟩ := Language.derives_scanner.1 hscanner
        obtain ⟨ms, hms, hscanners⟩ := exists_of_bind_eq_ok hscanners
        obtain ⟨others, hothers, hscanners⟩ := exists_of_bind_eq_ok hscanners
        cases hscanners
        rw [allValid_cons, allValid_cons, allValid_enclosed] at htss
        obtain ⟨⟨_, hname, hus⟩, htss⟩ := htss
        have hmessages := forall_of_mapM huss hus hms isPrintableMessage_of_decode
        exact List.forall_mem_cons.2 ⟨⟨hname, hmessages⟩, ih htss hothers⟩

/-- What sections with valid tokens mean can be printed. -/
theorem isPrintable_of_decode {sections : List Section} {d : Definition}
    (h : Language.file.Derives sections ts) (hts : AllValid ts) (hd : decode sections = .ok d) :
    IsPrintable d := by
  obtain ⟨tss, htss, rfl⟩ := h
  obtain ⟨scanners, hscanners, hd⟩ := exists_of_bind_eq_ok hd
  cases hd
  exact ⟨isPrintableTemplate_of_mem htss hts, isPrintableScanner_of_mem htss hts hscanners⟩

end Printable

/-! ## Round trips -/

private theorem allValid_of_written {ts : List Token} {cs rest : List Char}
    (h : Written ts cs rest) : AllValid ts := by
  induction h with
  | nil => exact allValid_nil
  | cons ht _ _ ih => exact allValid_cons.2 ⟨ht, ih⟩

private theorem parse_eq_ok_iff {source : String} {d : Definition} :
    parse source = .ok d ↔
      ∃ sections, recognize source.toList = .ok sections ∧ decode sections = .ok d := by
  unfold parse
  cases recognize source.toList with
  | error before => simp
  | ok sections =>
      cases hdecode : decode sections with
      | error e => simp [hdecode]
      | ok d' => simp [hdecode]

/-- A printable definition is read back from its text. -/
theorem parse_print {d : Definition} (style : Style) (h : IsPrintable d) :
    parse (print style d) = .ok d := by
  have hlaid : LaidOut (fileTokens style (writtenSections style d)) (print style d).toList := by
    rw [print, String.toList_ofList]
    exact laidOut_layOut style.isFiller (allValid_fileTokens style h)
  have hrecognize : recognize (print style d).toList = .ok (writtenSections style d) :=
    recognize_eq_ok_iff.2 ⟨_, derives_fileTokens style _, hlaid⟩
  exact parse_eq_ok_iff.2 ⟨_, hrecognize, decode_writtenSections style h⟩

/-- Every definition that is parsed can be printed. -/
theorem isPrintable_of_parse {source : String} {d : Definition} (h : parse source = .ok d) :
    IsPrintable d := by
  obtain ⟨sections, hrecognize, hdecode⟩ := parse_eq_ok_iff.1 h
  obtain ⟨ts, hts, w, cs, _, _, hwritten⟩ := recognize_eq_ok_iff.1 hrecognize
  exact isPrintable_of_decode hts (allValid_of_written hwritten) hdecode

/-- Exactly the printable definitions are read from texts, and each of them from every text that is
printed for it. -/
theorem definitions_round_trip :
    (∀ d style, IsPrintable d → parse (print style d) = .ok d) ∧
      ∀ source d, parse source = .ok d →
        IsPrintable d ∧ ∀ style, parse (print style d) = .ok d := by
  constructor
  · intro d style h
    exact parse_print style h
  · intro source d h
    have hprintable := isPrintable_of_parse h
    exact ⟨hprintable, fun style => parse_print style hprintable⟩

/-- A template with a quote and an escape in its text, and a scanner for messages of one kind. -/
def thermometer : Definition where
  templates := [⟨"ask", "say \"t\"\\n"⟩]
  scanners := [⟨"line", [⟨"reading",
    [⟨"value", .between [0x02] [0x0D, 0x0A], [⟨"number", ["\"°\""]⟩]⟩]⟩]⟩]

/-- Everything is separated by line feeds, and hexadecimal digits are in upper case. -/
def Style.lines : Style := ⟨true, false, fun _ => ['\n'], fun _ => .space rfl .none⟩

private theorem isPrintable_thermometer : IsPrintable thermometer where
  templates := by
    refine List.forall_mem_singleton.2 ⟨isName_cons rfl rfl, ?_⟩
    repeat' first | exact .nil | refine .plain (by decide) ?_ | refine .pair (by decide) ?_
  scanners := by
    refine List.forall_mem_singleton.2 ⟨isName_cons rfl rfl, ?_⟩
    refine List.forall_mem_singleton.2 ⟨isName_cons rfl rfl, ?_⟩
    refine List.forall_mem_singleton.2 ⟨isName_cons rfl rfl, trivial, ?_⟩
    exact List.forall_mem_singleton.2 (isName_cons rfl rfl)

/-- A definition with all kinds of strings is printable, and read back. -/
theorem parse_print_thermometer :
    IsPrintable thermometer ∧ parse (print .lines thermometer) = .ok thermometer :=
  ⟨isPrintable_thermometer,
    definitions_round_trip.1 thermometer .lines isPrintable_thermometer⟩

end DeviceMessages.Definition
