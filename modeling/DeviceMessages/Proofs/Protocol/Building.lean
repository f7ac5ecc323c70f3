import DeviceMessages.Generator
import DeviceMessages.Proofs.Directory
import DeviceMessages.Protocol
import DeviceMessages.Validator

/-!
# Building a protocol

A definition is sound if its names are different where they have to be, its templates compile, its
validators can be made and none of its scanners is without messages. That is what it takes to build
a protocol (`build_realizes_or_reports_first`).

The order in which things are looked at shows in the error. `faults` is the list of everything that
is wrong with a definition in that order, whether or not anything was wrong before: a repeated name
of a template or a scanner comes before what is wrong with its content, a repeated name of a rule or
a message comes after it. The stages of the build report the first member of their parts of the
list one by one, and the list of a whole is put together from those of its parts.
-/

namespace DeviceMessages

/-! ## What is wrong with a definition -/

/-- What is wrong with a rule of a message: the validators that cannot be made. -/
def RuleDefinition.faults (validators : Validators) (message : String) (d : RuleDefinition) :
    List ProtocolError :=
  d.validators.flatMap fun v =>
    (errorOf (validators.create v.name v.parameters)).toList.map (.validator message d.name)

/-- The rules whose names have occurred before. -/
def MessageDefinition.assemblyFaults (d : MessageDefinition) : List AssemblyError :=
  (repeatedNames (d.rules.map (·.name))).map (.duplicateRule d.name)

/-- What is wrong with a message: the faults of its rules and then the repeated names. -/
def MessageDefinition.faults (validators : Validators) (d : MessageDefinition) :
    List ProtocolError :=
  d.rules.flatMap (·.faults validators d.name) ++ d.assemblyFaults.map .assembly

/-- That there are no messages, and the messages whose names have occurred before. -/
def ScannerDefinition.assemblyFaults (d : ScannerDefinition) : List AssemblyError :=
  (if d.messages = [] then [.emptyScanner d.name] else []) ++
    (repeatedNames (d.messages.map (·.name))).map (.duplicateMessage d.name)

/-- What is wrong with a scanner: the faults of its messages and then those of the whole. -/
def ScannerDefinition.faults (validators : Validators) (d : ScannerDefinition) :
    List ProtocolError :=
  d.messages.flatMap (·.faults validators) ++ d.assemblyFaults.map .assembly

/-- What is wrong with a template: that it does not compile. -/
def TemplateDefinition.faults (functions : Functions) (d : TemplateDefinition) :
    List ProtocolError :=
  (errorOf (Template.compile functions d.name d.source)).toList.map (.template d.name)

/-- What is wrong with a definition: the faults of its templates and those of its scanners, in
which a repeated name comes before the faults of the thing that has it. -/
def Definition.faults (functions : Functions) (validators : Validators) (d : Definition) :
    List ProtocolError :=
  faultsInOrder (·.name) .duplicateTemplate (·.faults functions) d.templates ++
    faultsInOrder (·.name) .duplicateScanner (·.faults validators) d.scanners

/-! ## Sound definitions -/

/-- The names of the rules are different and all their validators can be made. -/
structure MessageDefinition.IsSound (validators : Validators) (d : MessageDefinition) : Prop where
  distinctRules : (d.rules.map (·.name)).Nodup
  validators : ∀ r ∈ d.rules, ∀ v ∈ r.validators, ∃ w, validators.create v.name v.parameters = .ok w

/-- There are messages, their names are different and all of them are sound. -/
structure ScannerDefinition.IsSound (validators : Validators) (d : ScannerDefinition) : Prop where
  nonempty : d.messages ≠ []
  distinctMessages : (d.messages.map (·.name)).Nodup
  messages : ∀ m ∈ d.messages, m.IsSound validators

/-- The names of the templates are different and all of them compile, the names of the scanners are
different and all of them are sound. -/
structure Definition.IsSound (functions : Functions) (validators : Validators) (d : Definition) :
    Prop where
  distinctTemplates : (d.templates.map (·.name)).Nodup
  templates : ∀ t ∈ d.templates, ∃ t', Template.compile functions t.name t.source = .ok t'
  distinctScanners : (d.scanners.map (·.name)).Nodup
  scanners : ∀ s ∈ d.scanners, s.IsSound validators

theorem RuleDefinition.faults_eq_nil_iff {validators : Validators} {message : String}
    {d : RuleDefinition} : d.faults validators message = [] ↔
      ∀ v ∈ d.validators, ∃ w, validators.create v.name v.parameters = .ok w := by
  simp [faults, errorOf_eq_none_iff]

theorem TemplateDefinition.faults_eq_nil_iff {functions : Functions} {d : TemplateDefinition} :
    d.faults functions = [] ↔ ∃ t, Template.compile functions d.name d.source = .ok t := by
  simp [faults, errorOf_eq_none_iff]

theorem MessageDefinition.faults_eq_nil_iff {validators : Validators} {d : MessageDefinition} :
    d.faults validators = [] ↔ d.IsSound validators := by
  rw [faults, List.append_eq_nil_iff, List.map_eq_nil_iff, assemblyFaults, List.map_eq_nil_iff,
    repeatedNames_eq_nil_iff, List.flatMap_eq_nil_iff]
  simp only [RuleDefinition.faults_eq_nil_iff]
  exact ⟨fun h => ⟨h.2, h.1⟩, fun h => ⟨h.validators, h.distinctRules⟩⟩

theorem ScannerDefinition.faults_eq_nil_iff {validators : Validators} {d : ScannerDefinition} :
    d.faults validators = [] ↔ d.IsSound validators := by
  have hempty : (if d.messages = [] then [AssemblyError.emptyScanner d.name] else []) = [] ↔
      d.messages ≠ [] := by
    by_cases h : d.messages = [] <;> simp [h]
  rw [faults, List.append_eq_nil_iff, List.map_eq_nil_iff, assemblyFaults, List.append_eq_nil_iff,
    hempty, List.map_eq_nil_iff, repeatedNames_eq_nil_iff, List.flatMap_eq_nil_iff]
  simp only [MessageDefinition.faults_eq_nil_iff]
  exact ⟨fun h => ⟨h.2.1, h.2.2, h.1⟩, fun h => ⟨h.messages, h.nonempty, h.distinctMessages⟩⟩

theorem Definition.faults_eq_nil_iff {functions : Functions} {validators : Validators}
    {d : Definition} : d.faults functions validators = [] ↔ d.IsSound functions validators := by
  rw [faults, List.append_eq_nil_iff, faultsInOrder_eq_nil_iff, faultsInOrder_eq_nil_iff]
  simp only [TemplateDefinition.faults_eq_nil_iff, ScannerDefinition.faults_eq_nil_iff]
  exact ⟨fun h => ⟨h.1.1, h.1.2, h.2.1, h.2.2⟩,
    fun h => ⟨⟨h.distinctTemplates, h.templates⟩, h.distinctScanners, h.scanners⟩⟩

/-! ## What a definition comes to -/

/-- A rule as the definition says, with one validator for each of the definition's. -/
structure Rule.Realizes (validators : Validators) (d : RuleDefinition) (r : Rule) : Prop where
  name : r.name = d.name
  location : r.location = d.location
  validators : List.Forall₂ (fun v w => validators.create v.name v.parameters = .ok w)
    d.validators r.validators

/-- A kind as the definition says, with its rules in their order. -/
structure MessageKind.Realizes (validators : Validators) (d : MessageDefinition)
    (kind : MessageKind) : Prop where
  name : kind.name = d.name
  rules : List.Forall₂ (Rule.Realizes validators) d.rules kind.rules

/-- A scanner as the definition says, with its kinds in their order. -/
structure Scanner.Realizes (validators : Validators) (d : ScannerDefinition) (s : Scanner) :
    Prop where
  name : s.name = d.name
  kinds : List.Forall₂ (MessageKind.Realizes validators) d.messages s.kinds

/-- A protocol as the definition says: `templates` and `scanners` are listed in the order of the
definition, and `template?` and `scanner?` find each of them by its name and nothing else. -/
structure Protocol.Realizes (functions : Functions) (validators : Validators) (d : Definition)
    (p : Protocol) : Prop where
  templates : List.Forall₂ (fun t t' => Template.compile functions t.name t.source = .ok t')
    d.templates p.templates
  scanners : List.Forall₂ (Scanner.Realizes validators) d.scanners p.scanners
  templateDirectory : p.templateDirectory.IsIndexed (·.name)
  scannerDirectory : p.scannerDirectory.IsIndexed (·.name)

/-! ## Rules -/

theorem Rule.reportsFirst_ofDefinition (validators : Validators) (message : String)
    (d : RuleDefinition) :
    ReportsFirst ((Rule.ofDefinition validators d).mapError (.validator message d.name))
      (d.faults validators message) := by
  have hmade := ReportsFirst.mapM d.validators fun v _ =>
    ReportsFirst.self (validators.create v.name v.parameters)
  have hrule : ReportsFirst (Rule.ofDefinition validators d)
      (d.validators.flatMap fun v => (errorOf (validators.create v.name v.parameters)).toList) :=
    hmade.map (Rule.mk d.name d.location)
  rw [RuleDefinition.faults, ← List.map_flatMap]
  exact hrule.mapError _

theorem Rule.realizes_of_ofDefinition {validators : Validators} {d : RuleDefinition} {r : Rule}
    (h : Rule.ofDefinition validators d = .ok r) : r.Realizes validators d := by
  obtain ⟨ws, hws, heq⟩ := exists_of_bind_eq_ok h
  cases heq
  exact ⟨rfl, rfl, forall₂_of_mapM_eq_ok hws⟩

/-! ## Repeated names -/

theorem firstRepeated?_append_singleton (seen names : List String) (n : String) :
    firstRepeated? seen (names ++ [n]) =
      (firstRepeated? seen names).or (if n ∈ seen ∨ n ∈ names then some n else none) := by
  induction names generalizing seen with
  | nil => simp [firstRepeated?]
  | cons m names ih =>
      rw [List.cons_append, firstRepeated?, firstRepeated?]
      by_cases hm : m ∈ seen
      · simp [hm]
      · simp only [List.contains_iff_mem, hm, if_false, ih, List.mem_cons, or_left_comm, or_assoc]

theorem firstRepeated?_eq_head? (names : List String) :
    firstRepeated? [] names = (repeatedNames names).head? := by
  induction names using List.reverseRecOn with
  | nil => rfl
  | append_singleton names n ih =>
      rw [firstRepeated?_append_singleton, repeatedNames_append_singleton, List.head?_append, ih]
      by_cases hmem : n ∈ names <;> simp [hmem]

/-! ## Kinds of messages -/

theorem MessageKind.reportsFirst_make (name : String) (rules : List Rule) :
    ReportsFirst (MessageKind.make name rules)
      ((repeatedNames (rules.map (·.name))).map (.duplicateRule name)) := by
  rw [ReportsFirst, List.head?_map, ← firstRepeated?_eq_head?, MessageKind.make]
  cases firstRepeated? [] (rules.map (·.name)) <;> rfl

theorem MessageKind.eq_of_make {name : String} {rules : List Rule} {kind : MessageKind}
    (h : MessageKind.make name rules = .ok kind) : kind = ⟨name, rules⟩ := by
  unfold MessageKind.make at h
  split at h
  · cases h
  · cases h
    rfl

theorem MessageKind.reportsFirst_ofDefinition (validators : Validators) (d : MessageDefinition) :
    ReportsFirst (MessageKind.ofDefinition validators d) (d.faults validators) := by
  have hrules := ReportsFirst.mapM d.rules fun r _ =>
    Rule.reportsFirst_ofDefinition validators d.name r
  refine hrules.bind fun rules h => ?_
  have hnames : rules.map (·.name) = d.rules.map (·.name) :=
    map_eq_map_of_forall₂ (forall₂_of_mapM_eq_ok h) fun _ _ hrule =>
      (Rule.realizes_of_ofDefinition (eq_ok_of_mapError_eq_ok hrule)).name
  rw [MessageDefinition.assemblyFaults, ← hnames]
  exact (MessageKind.reportsFirst_make d.name rules).mapError ProtocolError.assembly

theorem MessageKind.realizes_of_ofDefinition {validators : Validators} {d : MessageDefinition}
    {kind : MessageKind} (h : MessageKind.ofDefinition validators d = .ok kind) :
    kind.Realizes validators d := by
  obtain ⟨rules, hrules, hmake⟩ := exists_of_bind_eq_ok h
  have heq := MessageKind.eq_of_make (eq_ok_of_mapError_eq_ok hmake)
  subst heq
  exact ⟨rfl, (forall₂_of_mapM_eq_ok hrules).imp fun _ _ hrule =>
    Rule.realizes_of_ofDefinition (eq_ok_of_mapError_eq_ok hrule)⟩

/-! ## Scanners -/

theorem Scanner.reportsFirst_make (name : String) (kinds : List MessageKind) :
    ReportsFirst (Scanner.make name kinds)
      ((if kinds = [] then [.emptyScanner name] else []) ++
        (repeatedNames (kinds.map (·.name))).map (.duplicateMessage name)) := by
  by_cases h : kinds = []
  · simp [h, Scanner.make, ReportsFirst, errorOf]
  · rw [if_neg h, List.nil_append, ReportsFirst, List.head?_map, ← firstRepeated?_eq_head?,
      Scanner.make, if_neg (mt List.isEmpty_iff.1 h)]
    cases firstRepeated? [] (kinds.map (·.name)) <;> rfl

theorem Scanner.eq_of_make {name : String} {kinds : List MessageKind} {s : Scanner}
    (h : Scanner.make name kinds = .ok s) : s = ⟨name, kinds⟩ := by
  unfold Scanner.make at h
  by_cases hempty : kinds.isEmpty = true
  · rw [if_pos hempty] at h
    cases h
  · rw [if_neg hempty] at h
    split at h
    · cases h
    · cases h
      rfl

theorem Scanner.reportsFirst_ofDefinition (validators : Validators) (d : ScannerDefinition) :
    ReportsFirst (Scanner.ofDefinition validators d) (d.faults validators) := by
  have hkinds := ReportsFirst.mapM d.messages fun m _ =>
    MessageKind.reportsFirst_ofDefinition validators m
  refine hkinds.bind fun kinds h => ?_
  have hnames : kinds.map (·.name) = d.messages.map (·.name) :=
    map_eq_map_of_forall₂ (forall₂_of_mapM_eq_ok h) fun _ _ hkind =>
      (MessageKind.realizes_of_ofDefinition hkind).name
  have hempty : d.messages = [] ↔ kinds = [] := by
    rw [← List.map_eq_nil_iff, ← hnames, List.map_eq_nil_iff]
  simp only [ScannerDefinition.assemblyFaults, hempty, ← hnames]
  exact (Scanner.reportsFirst_make d.name kinds).mapError ProtocolError.assembly

theorem Scanner.realizes_of_ofDefinition {validators : Validators} {d : ScannerDefinition}
    {s : Scanner} (h : Scanner.ofDefinition validators d = .ok s) : s.Realizes validators d := by
  obtain ⟨kinds, hkinds, hmake⟩ := exists_of_bind_eq_ok h
  have heq := Scanner.eq_of_make (eq_ok_of_mapError_eq_ok hmake)
  subst heq
  exact ⟨rfl, (forall₂_of_mapM_eq_ok hkinds).imp fun _ _ => MessageKind.realizes_of_ofDefinition⟩

/-! ## Templates -/

theorem Template.name_of_compile {functions : Functions} {name source : String} {t : Template}
    (h : Template.compile functions name source = .ok t) : t.name = name := by
  obtain ⟨fragments, _, heq⟩ := exists_of_map_eq_ok h
  rw [← heq]

/-! ## Protocols -/

namespace Protocol

theorem reportsFirst_build (functions : Functions) (validators : Validators) (d : Definition) :
    ReportsFirst (build functions validators d) (d.faults functions validators) := by
  unfold build Definition.faults
  have htemplate : ∀ t ∈ d.templates, ReportsFirst
      ((Template.compile functions t.name t.source).mapError (ProtocolError.template t.name))
      (t.faults functions) := by
    intro t _
    exact (ReportsFirst.self _).mapError _
  have hscanner : ∀ s ∈ d.scanners,
      ReportsFirst (Scanner.ofDefinition validators s) (s.faults validators) := by
    intro s _
    exact Scanner.reportsFirst_ofDefinition validators s
  exact (Directory.reportsFirst_ofDefinitions d.templates htemplate).bind fun _ _ =>
    (Directory.reportsFirst_ofDefinitions d.scanners hscanner).map _

theorem realizes_of_build {functions : Functions} {validators : Validators} {d : Definition}
    {p : Protocol} (h : build functions validators d = .ok p) :
    p.Realizes functions validators d := by
  obtain ⟨templates, htemplates, hrest⟩ := exists_of_bind_eq_ok h
  obtain ⟨scanners, hscanners, heq⟩ := exists_of_bind_eq_ok hrest
  cases heq
  have htemplates' := Directory.listsAll_of_ofDefinitions htemplates
  have hscanners' := Directory.listsAll_of_ofDefinitions hscanners
  refine ⟨htemplates'.made.imp fun _ _ => eq_ok_of_mapError_eq_ok,
    hscanners'.made.imp fun _ _ => Scanner.realizes_of_ofDefinition,
    htemplates'.isIndexed fun _ _ h => Template.name_of_compile (eq_ok_of_mapError_eq_ok h),
    hscanners'.isIndexed fun _ _ h => (Scanner.realizes_of_ofDefinition h).name⟩

/-- A protocol is built of exactly the sound definitions, and then it is as the definition says.
The error for any other definition is the first of its faults. -/
theorem build_realizes_or_reports_first (functions : Functions) (validators : Validators)
    (d : Definition) :
    ((∃ p, build functions validators d = .ok p) ↔ d.IsSound functions validators) ∧
      (∀ p, build functions validators d = .ok p → p.Realizes functions validators d) ∧
      ∀ e, build functions validators d = .error e ↔
        (d.faults functions validators).head? = some e := by
  have hreport := reportsFirst_build functions validators d
  refine ⟨?_, fun p => realizes_of_build, fun e => hreport.eq_error_iff⟩
  rw [hreport.exists_eq_ok_iff, Definition.faults_eq_nil_iff]

/-- A definition of two templates and of a scanner with two kinds of messages. -/
def printer : Definition where
  templates := [⟨"ack", "#6;"⟩, ⟨"job", "$(id)"⟩]
  scanners := [⟨"replies",
    [⟨"status", [⟨"code", .offset 0 2, [⟨"is_integer", []⟩]⟩,
        ⟨"text", .between [0x7C] [0x0D], []⟩]⟩,
      ⟨"busy", [⟨"code", .offset 0 1, []⟩]⟩]⟩]

/-- Two messages of one name, the second one with an unknown validator and two rules of one name,
and after that a scanner of the same name as the first one and without messages. -/
def muddled : Definition where
  templates := [⟨"ack", "#6;"⟩]
  scanners := [⟨"replies", [⟨"status", [⟨"code", .offset 0 2, []⟩]⟩,
    ⟨"status", [⟨"code", .offset 0 2, [⟨"is_prime", []⟩]⟩, ⟨"code", .offset 0 2, []⟩]⟩]⟩,
    ⟨"replies", []⟩]

/-- The validator comes first of all that is wrong. The names of the rules around it, of the
messages around them and of the other scanner are looked at later. -/
theorem build_printer_and_muddled :
    (∃ p, build Functions.builtin Validators.builtin printer = .ok p ∧
      p.Realizes Functions.builtin Validators.builtin printer) ∧
    build Functions.builtin Validators.builtin muddled =
      .error (.validator "status" "code" (.unknown "is_prime")) := by
  have hprinter : printer.faults Functions.builtin Validators.builtin = [] := by decide +kernel
  have hmuddled : muddled.faults Functions.builtin Validators.builtin =
      [.validator "status" "code" (.unknown "is_prime"),
        .assembly (.duplicateRule "status" "code"),
        .assembly (.duplicateMessage "replies" "status"),
        .duplicateScanner "replies",
        .assembly (.emptyScanner "replies")] := by decide +kernel
  constructor
  · have hsound := Definition.faults_eq_nil_iff.1 hprinter
    obtain ⟨p, hp⟩ := (build_realizes_or_reports_first _ _ _).1.2 hsound
    exact ⟨p, hp, (build_realizes_or_reports_first _ _ _).2.1 p hp⟩
  · refine ((build_realizes_or_reports_first _ _ _).2.2 _).2 ?_
    rw [hmuddled, List.head?_cons]

end Protocol

end DeviceMessages
