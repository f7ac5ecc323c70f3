import DeviceMessages.CommandLine.Arguments
import DeviceMessages.Generator
import DeviceMessages.Protocol
import DeviceMessages.Validator

/-!
# What the program prints

A run of the program comes to a report: what it writes to its output, what it tells the user beside
that, and its status. The status is 0 if all went well, 1 if something could not be done or a line
was not matched, 2 if the arguments make no sense, and 101 if a message breaks off at a number that
cannot be written.

What is written about a line of input holds no line break of the input and nothing that does not
print, so that every line of output can be told apart.
-/

namespace DeviceMessages.CommandLine

/-- What a run of the program sees of the world. -/
structure World where
  /-- The bytes of a file, or why it cannot be read. -/
  readFile : String → Except String Bytes
  standardInput : Bytes
  clock : Nat → Time.Moment

structure Report where
  status : Nat
  output : Bytes
  messages : String

/-! ## Failures -/

/-- Something that could not be done, with the causes from the nearest to the last. -/
structure Failure where
  text : String
  causes : List String

/-- A text with an indentation before its lines, which is another one for the first line. -/
def indent (first others : String) (text : String) : String :=
  let lines := (Text.splitOn '\n' text.toList).map String.ofList
  first ++ ("\n" ++ others).intercalate lines

/-- A number before a cause, filled up to five characters. -/
def ordinal (n : Nat) : String :=
  let ds := Decimal.digits n
  String.ofList (List.replicate (5 - ds.length) ' ' ++ ds) ++ ": "

/-- The lines about causes. If there is more than one they are numbered. -/
def causeLines : List String → List String
  | [cause] => [indent "    " "    " cause]
  | causes => causes.mapIdx fun n cause => indent (ordinal n) "       " cause

def Failure.message (f : Failure) : String :=
  let causes :=
    if f.causes.isEmpty then "" else "\n\nCaused by:\n" ++ "\n".intercalate (causeLines f.causes)
  "Error: " ++ f.text ++ causes ++ "\n"

/-- Nothing is written when something could not be done. -/
def Failure.report (f : Failure) : Report :=
  ⟨1, [], f.message⟩

/-- Why bytes that should be text are not taken. -/
def notText : String := "stream did not contain valid UTF-8"

/-! ## Definition files -/

def readProtocol (world : World) (file : String) : Except ProtocolError Protocol :=
  match world.readFile file with
  | .error reason => .error (.unreadable file reason)
  | .ok bytes =>
    match Text.ofUtf8? bytes with
    | none => .error (.unreadable file notText)
    | some source => Protocol.ofSource Functions.builtin Validators.builtin source

/-- The protocol that a file defines, or the failure to load it. -/
def loadProtocol (world : World) (file : String) : Except Failure Protocol :=
  (readProtocol world file).mapError fun e => ⟨s!"loading {file}", e.message :: e.causes⟩

def templateLine (t : Template) : String :=
  s!"template {t.name} ({t.fragments.length} fragments)\n"

def scannerLine (s : Scanner) : String :=
  s!"scanner {s.name}: " ++ ", ".intercalate (s.kinds.map (·.name)) ++ "\n"

/-- Lists what a file defines. -/
def check (world : World) (file : String) : Except Failure Report := do
  let protocol ← loadProtocol world file
  let lines := protocol.templates.map templateLine ++ protocol.scanners.map scannerLine
  .ok ⟨0, Text.utf8 (String.join lines), s!"{file}: ok\n"⟩

/-! ## Composing -/

/-- Nothing of a message is written if a number in it cannot be. -/
def brokenOff : Report :=
  ⟨101, [], "Formatting argument out of range\n"⟩

/-- Writes a message, as its bytes or as they are shown. -/
def compose (world : World) (file template : String) (values : List (String × String))
    (escaped : Bool) : Except Failure Report := do
  let protocol ← loadProtocol world file
  match protocol.template? template with
  | none => .error ⟨s!"no template named '{template}' in {file}", []⟩
  | some t =>
    match t.format world.clock ((Record.new "").insertAll values) with
    | none => .ok brokenOff
    | some bytes =>
      .ok ⟨0, if escaped then Text.utf8 (Text.escapedBytes bytes ++ "\n") else bytes, ""⟩

/-! ## Scanning -/

/-- A line without the carriage return that it may end with. -/
def dropReturn (line : List Char) : List Char :=
  if line.getLast? = some '\r' then line.dropLast else line

/-- The lines of a text. A line ends with a line feed or with a carriage return and a line feed;
what comes after the last line feed is a line if it is not empty. -/
def linesOf (cs : List Char) : List String :=
  let parts := Text.splitOn '\n' cs
  let last := match parts.getLast? with
    | none | some [] => []
    | some line => [line]
  (parts.dropLast.map dropReturn ++ last).map String.ofList

def fieldLine (f : FieldValue) : String :=
  "  " ++ f.1 ++ " = " ++ Text.escapedBytes f.2 ++ "\n"

/-- The lines about a line of input. -/
def scanBlock (s : Scanner) (line : String) : String :=
  match s.scan (Text.utf8 line) with
  | .ok m => m.name ++ "\n" ++ String.join (m.fields.map fieldLine)
  | .error e => Text.escapedLine line ++ ": " ++ e.message ++ "\n"

/-- Whether a line is of exactly one kind. -/
def isMatched (s : Scanner) (line : String) : Bool :=
  (s.scan (Text.utf8 line)).toBool

def scanReport (s : Scanner) (lines : List String) : Report :=
  let unmatched := (lines.filter fun line => !isMatched s line).length
  let output := Text.utf8 (String.join (lines.map (scanBlock s)))
  if unmatched = 0 then ⟨0, output, ""⟩
  else ⟨1, output, s!"scan: {unmatched} of {lines.length} input(s) not matched\n"⟩

/-- The lines to be scanned: the given text as it is, or those of the standard input. -/
def inputLines (world : World) (input : Option String) : Except Failure (List String) :=
  match input, Text.ofUtf8? world.standardInput with
  | some text, _ => .ok [text]
  | none, some text => .ok (linesOf text.toList)
  | none, none => .error ⟨notText, []⟩

/-- Tells which kind of message each line of input is. -/
def scan (world : World) (file scanner : String) (input : Option String) :
    Except Failure Report := do
  let protocol ← loadProtocol world file
  match protocol.scanner? scanner with
  | none => .error ⟨s!"no scanner named '{scanner}' in {file}", []⟩
  | some s => (inputLines world input).map (scanReport s)

/-! ## All requests -/

def helpText : String :=
  "Template composer and rule-based scanner for fixed-format device protocol messages\n\n" ++
  "Usage: devwire [OPTIONS] <COMMAND>\n\n" ++
  "Commands:\n" ++
  "  check    Parse and build a definition file, then list its contents\n" ++
  "  compose  Format a template with a record built from KEY=VALUE pairs\n" ++
  "  scan     Classify input with a scanner and print the matched fields\n" ++
  "  help     Print this message or the help of the given subcommand(s)\n\n" ++
  "Options:\n" ++
  "  -v, --verbose  Debug logging (overridden by RUST_LOG)\n" ++
  "  -h, --help     Print help\n" ++
  "  -V, --version  Print version\n"

def runCommand (world : World) : Command → Except Failure Report
  | .check file => check world file
  | .compose file template values escaped => compose world file template values escaped
  | .scan file scanner input => scan world file scanner input

def run (world : World) (arguments : List String) : Report :=
  match Request.ofArguments arguments with
  | .run command =>
    match runCommand world command with
    | .ok report => report
    | .error failure => failure.report
  | .help => ⟨0, Text.utf8 helpText, ""⟩
  | .version => ⟨0, Text.utf8 "devwire 0.1.0\n", ""⟩
  | .misuse => ⟨2, [], helpText⟩

end DeviceMessages.CommandLine
