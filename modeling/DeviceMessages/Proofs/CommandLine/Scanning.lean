import DeviceMessages.Proofs.CommandLine.Lines
import DeviceMessages.Proofs.Definition.RoundTrip
import DeviceMessages.Proofs.Message.Reordering
import DeviceMessages.Proofs.Protocol.Building
import DeviceMessages.Proofs.Text.Escaping

/-!
# What scanning prints

Every line of the input has a block of lines in the output (`Shows`): the name of its kind and a
line for each field, or one line if it is not of exactly one kind. A reader of the output can rely
on the shape of the blocks only if nothing else in them breaks a line. The texts of a block come
from three sides. Names were read from the definition file, so they are names; values and lines of
input come from the device and are escaped; the rest is the wording of the program.

The status and the message beside the output count the lines without a message. If the input is no
text, nothing is written for any of its lines, those before the fault included.

## Main result

* `run_scan_reports` — what comes of a run of the program that scans.
-/

namespace DeviceMessages.CommandLine

open Text (IsPlain utf8 ofUtf8?)

/-! ## Blocks of output -/

/-- What is written about a field, on a line of its own. -/
def fieldText (f : FieldValue) : String :=
  "  " ++ f.1 ++ " = " ++ Text.escapedBytes f.2

/-- The texts that a line of input is shown by, each on a line of its own. -/
inductive Shows (s : Scanner) (line : Bytes) : List String → Prop
  | matched {kind : MessageKind} {fields : List FieldValue} (hkind : kind ∈ s.kinds)
      (hfields : kind.Extracts line fields) (h : s.scan line = .ok ⟨kind.name, fields⟩) :
      Shows s line (kind.name :: fields.map fieldText)
  | unmatched {text : String} {e : ScanError} (htext : ofUtf8? line = some text)
      (h : s.scan line = .error e) : Shows s line [Text.escapedLine text ++ ": " ++ e.message]

/-- Texts as lines. -/
def asLines (texts : List String) : Bytes :=
  texts.flatMap fun text => utf8 text ++ [0x0A]

def unmatchedLines (s : Scanner) (lines : List Bytes) : List Bytes :=
  lines.filter fun line => !(s.scan line).toBool

/-- How many lines were not matched. -/
def summary (unmatched all : Nat) : String :=
  s!"scan: {unmatched} of {all} input(s) not matched\n"

/-- What is reported about lines of input. -/
structure Reports (s : Scanner) (lines : List Bytes) (r : Report) : Prop where
  /-- The output has a block for each line, in their order, and no other control characters than the
  line feeds after the texts of the blocks. -/
  output : ∃ blocks, List.Forall₂ (Shows s) lines blocks ∧
    (∀ block ∈ blocks, ∀ text ∈ block, IsPlain text) ∧ r.output = blocks.flatMap asLines
  status_eq_one_iff : r.status = 1 ↔ ∃ line ∈ lines, ∀ m, s.scan line ≠ .ok m
  status_eq_zero_iff : r.status = 0 ↔ ∀ line ∈ lines, ∃ m, s.scan line = .ok m
  messages : unmatchedLines s lines ≠ [] →
    r.messages = summary (unmatchedLines s lines).length lines.length

/-! ## Names -/

/-- The names that the blocks have are plain. -/
def HasPlainNames (s : Scanner) : Prop :=
  ∀ kind ∈ s.kinds, IsPlain kind.name ∧ ∀ r ∈ kind.rules, IsPlain r.name

/-- What a definition is realized by has its names. -/
theorem hasPlainNames_of_realizes {validators : Validators} {d : ScannerDefinition} {s : Scanner}
    (hs : s.Realizes validators d) (hd : Definition.IsPrintableScanner d) : HasPlainNames s := by
  intro kind hkind
  obtain ⟨m, hm, hmkind⟩ := exists_mem_of_forall₂ hs.kinds.flip hkind
  have hprintable := hd.messages m hm
  constructor
  · rw [hmkind.name]
    exact Text.isPlain_of_isName hprintable.name
  · intro r hr
    obtain ⟨rule, hrule, hrealizes⟩ := exists_mem_of_forall₂ hmkind.rules.flip hr
    rw [hrealizes.name]
    exact Text.isPlain_of_isName (hprintable.rules rule hrule).name

theorem mem_scanners_of_scanner? {p : Protocol} {name : String} {s : Scanner}
    (h : p.scanner? name = some s) : s ∈ p.scanners := by
  obtain ⟨i, -, hi⟩ := Option.bind_eq_some_iff.1 h
  exact List.mem_of_getElem? hi

/-- The names in a scanner of a definition file were read as names. -/
theorem hasPlainNames_of_readProtocol {world : World} {file name : String} {p : Protocol}
    {s : Scanner} (hfile : readProtocol world file = .ok p) (hs : p.scanner? name = some s) :
    HasPlainNames s := by
  obtain ⟨source, hsource⟩ : ∃ source,
      Protocol.ofSource Functions.builtin Validators.builtin source = .ok p := by
    unfold readProtocol at hfile
    split at hfile
    · cases hfile
    · split at hfile
      · cases hfile
      · exact ⟨_, hfile⟩
  obtain ⟨definition, hparse, hbuild⟩ := exists_of_bind_eq_ok hsource
  have hprintable := Definition.isPrintable_of_parse (eq_ok_of_mapError_eq_ok hparse)
  have hrealizes := Protocol.realizes_of_build hbuild
  obtain ⟨d, hd, hsd⟩ := exists_mem_of_forall₂ hrealizes.scanners.flip
    (mem_scanners_of_scanner? hs)
  exact hasPlainNames_of_realizes hsd (hprintable.scanners d hd)

/-! ## The block of a line -/

variable {s : Scanner}

theorem asLines_cons (text : String) (texts : List String) :
    asLines (text :: texts) = utf8 (text ++ "\n") ++ asLines texts := by
  rw [asLines, List.flatMap_cons, Text.utf8_append]
  rfl

theorem utf8_join_fieldLine (fields : List FieldValue) :
    utf8 (String.join (fields.map fieldLine)) = asLines (fields.map fieldText) := by
  induction fields with
  | nil => rfl
  | cons f fields ih =>
      rw [List.map_cons, List.map_cons, String.join_cons, Text.utf8_append, ih, asLines_cons]
      rfl

theorem isPlain_fieldText {f : FieldValue} (h : IsPlain f.1) : IsPlain (fieldText f) := by
  have hindent : IsPlain "  " := by decide
  have hequals : IsPlain " = " := by decide
  exact ((hindent.append h).append hequals).append (Text.isPlain_escapedBytes f.2)

/-- The wording of a scanner's error has no control characters if the names have none. -/
theorem isPlain_message (hs : HasPlainNames s) {line : Bytes} {e : ScanError}
    (h : s.scan line = .error e) : IsPlain e.message := by
  cases e with
  | noMatch => decide
  | ambiguous names =>
      have hnames : ∀ name ∈ names, IsPlain name := by
        intro name hname
        have hmem := ((s.answersInOrder line).names names h).mem hname
        obtain ⟨kind, hkind, rfl⟩ := List.mem_map.1 hmem
        exact (hs kind hkind).1
      have hfront : IsPlain "ambiguous input: matched by " := by decide
      have hseparator : IsPlain ", " := by decide
      exact hfront.append (hseparator.intercalate hnames)
  | rejected name => exact absurd h (Scanner.scan_ne_rejected name)

/-- What is written for a line shows it, in texts without control characters. -/
theorem exists_shows_scanBlock (hs : HasPlainNames s) (line : String) :
    ∃ texts, Shows s (utf8 line) texts ∧ (∀ text ∈ texts, IsPlain text) ∧
      utf8 (scanBlock s line) = asLines texts := by
  cases hscan : s.scan (utf8 line) with
  | ok m =>
      obtain ⟨kind, hkind, hname, hfields⟩ := Scanner.exists_kind_of_scan_eq_ok hscan
      obtain ⟨name, fields⟩ := m
      cases hname
      refine ⟨_, .matched hkind hfields hscan, ?_, ?_⟩
      · refine List.forall_mem_cons.2 ⟨(hs kind hkind).1, List.forall_mem_map.2 ?_⟩
        intro f hf
        have hrule : f.1 ∈ kind.rules.map (·.name) := by
          rw [← hfields.map_name]
          exact List.mem_map_of_mem hf
        obtain ⟨r, hr, hrname⟩ := List.mem_map.1 hrule
        exact isPlain_fieldText (hrname ▸ (hs kind hkind).2 r hr)
      · have hblock : scanBlock s line =
            kind.name ++ "\n" ++ String.join (fields.map fieldLine) := by
          rw [scanBlock, hscan]
        rw [hblock, Text.utf8_append, utf8_join_fieldLine, asLines_cons]
  | error e =>
      have hcolon : IsPlain ": " := by decide
      have hplain := ((Text.isPlain_escapedLine line).append hcolon).append
        (isPlain_message hs hscan)
      refine ⟨_, .unmatched (Text.ofUtf8?_utf8 line) hscan, List.forall_mem_singleton.2 hplain, ?_⟩
      have hblock : scanBlock s line = Text.escapedLine line ++ ": " ++ e.message ++ "\n" := by
        rw [scanBlock, hscan]
      rw [hblock, asLines_cons]
      exact (List.append_nil _).symm

/-! ## The report of all lines -/

theorem exists_blocks (hs : HasPlainNames s) (lines : List String) :
    ∃ blocks, List.Forall₂ (Shows s) (lines.map utf8) blocks ∧
      (∀ block ∈ blocks, ∀ text ∈ block, IsPlain text) ∧
      utf8 (String.join (lines.map (scanBlock s))) = blocks.flatMap asLines := by
  induction lines with
  | nil => exact ⟨[], .nil, nofun, rfl⟩
  | cons line lines ih =>
      obtain ⟨texts, hshows, hplain, hwritten⟩ := exists_shows_scanBlock hs line
      obtain ⟨blocks, hblocks, hall, hrest⟩ := ih
      refine ⟨texts :: blocks, .cons hshows hblocks, List.forall_mem_cons.2 ⟨hplain, hall⟩, ?_⟩
      rw [List.map_cons, String.join_cons, Text.utf8_append, hwritten, hrest, List.flatMap_cons]

/-- The lines that the program counts are those that are not of exactly one kind. -/
theorem length_unmatchedLines (s : Scanner) (lines : List String) :
    (unmatchedLines s (lines.map utf8)).length =
      (lines.filter fun line => !isMatched s line).length := by
  rw [unmatchedLines, List.filter_map, List.length_map]
  rfl

theorem unmatchedLines_ne_nil_iff (s : Scanner) (lines : List Bytes) :
    unmatchedLines s lines ≠ [] ↔ ∃ line ∈ lines, ∀ m, s.scan line ≠ .ok m := by
  have hnot : ∀ line, (!(s.scan line).toBool) = true ↔ ∀ m, s.scan line ≠ .ok m := by
    intro line
    cases s.scan line <;> simp [Except.toBool]
  unfold unmatchedLines
  constructor
  · intro hne
    obtain ⟨line, hmem⟩ := List.exists_mem_of_ne_nil _ hne
    obtain ⟨hline, hno⟩ := List.mem_filter.1 hmem
    exact ⟨line, hline, (hnot line).1 hno⟩
  · rintro ⟨line, hline, hno⟩
    exact List.ne_nil_of_mem (List.mem_filter.2 ⟨hline, (hnot line).2 hno⟩)

theorem reports_scanReport (hs : HasPlainNames s) (lines : List String) :
    Reports s (lines.map utf8) (scanReport s lines) := by
  have houtput := exists_blocks hs lines
  have hlength := length_unmatchedLines s lines
  have hexists := unmatchedLines_ne_nil_iff s (lines.map utf8)
  have hall : (∀ line ∈ lines.map utf8, ∃ m, s.scan line = .ok m) ↔
      ¬ unmatchedLines s (lines.map utf8) ≠ [] := by
    rw [hexists]
    simp only [not_exists, not_and, not_forall, not_not]
  by_cases hsome : unmatchedLines s (lines.map utf8) ≠ []
  · have hreport : scanReport s lines =
        ⟨1, utf8 (String.join (lines.map (scanBlock s))),
          summary (unmatchedLines s (lines.map utf8)).length (lines.map utf8).length⟩ := by
      rw [scanReport, ← hlength, if_neg (mt List.length_eq_zero_iff.1 hsome), List.length_map]
      rfl
    rw [hreport]
    exact ⟨houtput, iff_of_true rfl (hexists.1 hsome),
      iff_of_false Nat.one_ne_zero fun h => hall.1 h hsome, fun _ => rfl⟩
  · have hreport : scanReport s lines =
        ⟨0, utf8 (String.join (lines.map (scanBlock s))), ""⟩ := by
      rw [scanReport, ← hlength, if_pos (List.length_eq_zero_iff.2 (not_not.1 hsome))]
    rw [hreport]
    exact ⟨houtput, iff_of_false Nat.zero_ne_one (mt hexists.2 hsome),
      iff_of_true rfl (hall.2 hsome), fun h => absurd h hsome⟩

/-! ## A run of the program -/

theorem fieldText_injective (name : String) :
    Function.Injective fun value => fieldText (name, value) := by
  intro a b h
  have hvalue : Text.escapedBytes a = Text.escapedBytes b := by
    refine String.toList_injective ?_
    have hchars := congrArg String.toList h
    simpa [fieldText] using hchars
  exact Text.escapedBytes_injective hvalue

variable {world : World} {file scanner : String} {protocol : Protocol} {arguments : List String}

theorem scan_eq (hfile : readProtocol world file = .ok protocol)
    (hscanner : protocol.scanner? scanner = some s) (input : Option String) :
    scan world file scanner input = (inputLines world input).map (scanReport s) := by
  have hload : loadProtocol world file = .ok protocol := by
    rw [loadProtocol, hfile]
    rfl
  simp only [scan, hload, hscanner, bind, Except.bind]

/-- A run that scans reports its lines. -/
theorem run_of_lines (hfile : readProtocol world file = .ok protocol)
    (hscanner : protocol.scanner? scanner = some s) {input : Option String}
    (harguments : Request.ofArguments arguments = .run (.scan file scanner input))
    {lines : List String} (hinput : inputLines world input = .ok lines) :
    run world arguments = scanReport s lines := by
  simp only [run, harguments, runCommand, scan_eq hfile hscanner, hinput, Except.map]

/-- A run that scans reports the failure to read its lines. -/
theorem run_of_failure (hfile : readProtocol world file = .ok protocol)
    (hscanner : protocol.scanner? scanner = some s) {input : Option String}
    (harguments : Request.ofArguments arguments = .run (.scan file scanner input))
    {failure : Failure} (hinput : inputLines world input = .error failure) :
    run world arguments = failure.report := by
  simp only [run, harguments, runCommand, scan_eq hfile hscanner, hinput, Except.map]

/-- A run that scans with a scanner of a definition file reports the lines of its input if they are
text, and otherwise writes nothing. A text among the arguments is one line, whatever is in it.
What is written about a field shows its value. -/
theorem run_scan_reports (world : World) (file scanner : String) (protocol : Protocol) (s : Scanner)
    (hfile : readProtocol world file = .ok protocol)
    (hscanner : protocol.scanner? scanner = some s) :
    (∀ arguments, Request.ofArguments arguments = .run (.scan file scanner none) →
      ∃ lines, HasLines world.standardInput lines ∧
        ((∃ line ∈ lines, ofUtf8? line = none) →
          (run world arguments).output = [] ∧ (run world arguments).status = 1) ∧
        ((∀ line ∈ lines, ofUtf8? line ≠ none) → Reports s lines (run world arguments))) ∧
    (∀ arguments text, Request.ofArguments arguments = .run (.scan file scanner (some text)) →
      Reports s [utf8 text] (run world arguments)) ∧
    ∀ name, Function.Injective fun value => fieldText (name, value) := by
  have hs := hasPlainNames_of_readProtocol hfile hscanner
  refine ⟨?_, ?_, fieldText_injective⟩
  · intro arguments harguments
    obtain ⟨lines, hlines⟩ := exists_hasLines world.standardInput
    refine ⟨lines, hlines, ?_⟩
    cases hinput : ofUtf8? world.standardInput with
    | none =>
        have hfailure : inputLines world none = .error ⟨notText, []⟩ := by
          simp only [inputLines, hinput]
        rw [run_of_failure hfile hscanner harguments hfailure]
        refine ⟨fun _ => ⟨rfl, rfl⟩, fun hall => ?_⟩
        obtain ⟨line, hline, hnone⟩ := hlines.exists_not_text_iff.2 hinput
        exact absurd hnone (hall line hline)
    | some text =>
        have hread : inputLines world none = .ok (linesOf text.toList) := by
          simp only [inputLines, hinput]
        refine ⟨fun hnone => ?_, fun _ => ?_⟩
        · rw [hlines.exists_not_text_iff.1 hnone] at hinput
          cases hinput
        · rw [Text.ofUtf8?_eq_some_iff.1 hinput] at hlines
          rw [run_of_lines hfile hscanner harguments hread, hlines.eq_map_linesOf]
          exact reports_scanReport hs _
  · intro arguments text harguments
    rw [run_of_lines hfile hscanner harguments rfl]
    exact reports_scanReport hs [text]

/-- A definition of a scanner for one kind of messages. -/
def pings : Definition where
  templates := []
  scanners := [⟨"pings", [⟨"ping", [⟨"id", .between [0x3D] [0x3B], []⟩]⟩]⟩]

def pingScanner : Scanner :=
  ⟨"pings", [⟨"ping", [⟨"id", .between [0x3D] [0x3B], []⟩]⟩]⟩

def pingProtocol : Protocol :=
  ⟨.empty, ⟨[pingScanner], ⟨[("pings", 0)]⟩⟩⟩

/-- The definition in a file, and a message and another line on the standard input. -/
def pingWorld : World where
  readFile _ := .ok (utf8 (Definition.print .lines pings))
  standardInput := utf8 "id=7;\r\nlost\n"
  clock _ := Time.Moment.epoch

theorem readProtocol_pings : readProtocol pingWorld "pings" = .ok pingProtocol := by
  have hprintable : Definition.IsPrintable pings := by
    refine ⟨nofun, List.forall_mem_singleton.2 ⟨Definition.isName_cons rfl rfl, ?_⟩⟩
    refine List.forall_mem_singleton.2 ⟨Definition.isName_cons rfl rfl, ?_⟩
    exact List.forall_mem_singleton.2 ⟨Definition.isName_cons rfl rfl, trivial, nofun⟩
  have hparse := Definition.parse_print .lines hprintable
  have hbuild : Protocol.build Functions.builtin Validators.builtin pings = .ok pingProtocol := rfl
  unfold readProtocol
  simp only [pingWorld, Text.ofUtf8?_utf8, Protocol.ofSource, hparse]
  exact hbuild

/-- A line that is no message makes the status 1. A text among the arguments is not taken apart at
its line feed. -/
theorem run_scan_reports_pings :
    Reports pingScanner [utf8 "id=7;", utf8 "lost"] (run pingWorld ["scan", "pings", "pings"]) ∧
    (run pingWorld ["scan", "pings", "pings"]).status = 1 ∧
    Reports pingScanner [utf8 "lost\nid=7;"]
      (run pingWorld ["scan", "pings", "pings", "-i", "lost\nid=7;"]) := by
  obtain ⟨hlines, htext, -⟩ := run_scan_reports pingWorld "pings" "pings" pingProtocol pingScanner
    readProtocol_pings rfl
  obtain ⟨lines, hinput, -, hreports⟩ := hlines ["scan", "pings", "pings"] (by decide +kernel)
  have heq : lines = [utf8 "id=7;", utf8 "lost"] := by
    rw [hinput.eq_map_linesOf]
    have hlinesOf : linesOf "id=7;\r\nlost\n".toList = ["id=7;", "lost"] := by decide +kernel
    rw [hlinesOf]
    rfl
  rw [heq] at hreports
  have hall : ∀ line ∈ [utf8 "id=7;", utf8 "lost"], ofUtf8? line ≠ none := by
    simp [Text.ofUtf8?_utf8]
  have hlost : pingScanner.scan (utf8 "lost") = .error .noMatch := rfl
  refine ⟨hreports hall, ?_, htext _ _ (by decide +kernel)⟩
  refine (hreports hall).status_eq_one_iff.2 ⟨utf8 "lost", by simp, ?_⟩
  rw [hlost]
  exact nofun

end DeviceMessages.CommandLine
