/-!
# Arguments of the command line

    devwire check FILE
    devwire compose FILE TEMPLATE [KEY=VALUE ...] [--hex]
    devwire scan FILE SCANNER [--input TEXT]

Options may stand anywhere after the word of the command, short ones may be put together, and after
`--` everything is taken as it is. An option may be given only once. Arguments are read from left to
right; a request for help is granted when it is come upon before any mistake.
-/

namespace DeviceMessages.CommandLine

inductive Command where
  | check (file : String)
  | compose (file template : String) (values : List (String × String)) (escaped : Bool)
  /-- Without an input text the lines of the standard input are scanned. -/
  | scan (file scanner : String) (input : Option String)
deriving DecidableEq

/-- What the arguments come to. -/
inductive Request where
  | run (command : Command)
  | help
  | version
  | misuse
deriving DecidableEq

inductive Verb where
  | check
  | compose
  | scan
deriving DecidableEq

def Verb.ofString? : String → Option Verb
  | "check" => some .check
  | "compose" => some .compose
  | "scan" => some .scan
  | _ => none

/-- Why reading the arguments stops early. -/
inductive Stop where
  | help
  | misuse
deriving DecidableEq

def Stop.request : Stop → Request
  | .help => .help
  | .misuse => .misuse

structure Arguments where
  positional : List String
  verbose : Bool
  hex : Bool
  input : Option String
deriving DecidableEq

def Arguments.empty : Arguments := ⟨[], false, false, none⟩

/-- A key and a value, around the first equals sign. -/
def keyValue? (argument : String) : Option (String × String) :=
  let cs := argument.toList
  match cs.dropWhile (· != '=') with
  | [] => none
  | _ :: value => some (String.ofList (cs.takeWhile (· != '=')), String.ofList value)

/-- Whether a command can take one more argument by position. The file has a name, and after the
template come pairs of a key and a value. -/
def admits (verb : Verb) (count : Nat) (argument : String) : Bool :=
  match verb, count with
  | _, 0 => !argument.isEmpty
  | .check, _ => false
  | _, 1 => true
  | .scan, _ => false
  | .compose, _ => (keyValue? argument).isSome

def addPositional (verb : Verb) (a : Arguments) (argument : String) : Except Stop Arguments :=
  if admits verb a.positional.length argument then
    .ok { a with positional := a.positional ++ [argument] }
  else .error .misuse

def setVerbose (a : Arguments) : Except Stop Arguments :=
  if a.verbose then .error .misuse else .ok { a with verbose := true }

def takesInput (verb : Verb) (a : Arguments) : Bool :=
  verb == .scan && a.input.isNone

/-- Reads a long option, given its text after the dashes. Answers whether the next argument is the
value of the option. -/
def readLong (verb : Verb) (a : Arguments) (option : List Char) : Except Stop (Arguments × Bool) :=
  match String.ofList option with
  | "verbose" => (setVerbose a).map (·, false)
  | "help" => .error .help
  | "hex" =>
    if verb == .compose && !a.hex then .ok ({ a with hex := true }, false) else .error .misuse
  | "input" => if takesInput verb a then .ok (a, true) else .error .misuse
  | other =>
    match keyValue? other with
    | some ("input", text) =>
      if takesInput verb a then .ok ({ a with input := some text }, false) else .error .misuse
    | _ => .error .misuse

/-- Reads short options that are put together, given their letters. Answers whether the next
argument is the value of the last of them. -/
def readShort (verb : Verb) (a : Arguments) : List Char → Except Stop (Arguments × Bool)
  | [] => .ok (a, false)
  | 'v' :: cs =>
    match setVerbose a with
    | .ok a => readShort verb a cs
    | .error stop => .error stop
  | 'h' :: _ => .error .help
  | 'i' :: cs =>
    if takesInput verb a then
      match cs with
      | [] => .ok (a, true)
      | '=' :: text => .ok ({ a with input := some (String.ofList text) }, false)
      | text => .ok ({ a with input := some (String.ofList text) }, false)
    else .error .misuse
  | _ => .error .misuse

/-- Whether an argument is an option and not a value. A dash alone is a value. -/
def isOption (argument : String) : Bool :=
  match argument.toList with
  | '-' :: _ :: _ => true
  | _ => false

/-- Reads an option. Answers whether the next argument is its value. -/
def readOption (verb : Verb) (a : Arguments) (argument : String) :
    Except Stop (Arguments × Bool) :=
  match argument.toList with
  | '-' :: '-' :: option => readLong verb a option
  | _ :: letters => readShort verb a letters
  | [] => .error .misuse

def readArguments (verb : Verb) (a : Arguments) : List String → Except Stop Arguments
  | [] => .ok a
  | argument :: rest =>
    if argument == "--" then rest.foldlM (addPositional verb) a
    else if isOption argument then
      match readOption verb a argument, rest with
      | .error stop, _ => .error stop
      | .ok (a, false), rest => readArguments verb a rest
      | .ok (_, true), [] => .error .misuse
      | .ok (a, true), value :: rest =>
        if isOption value then .error .misuse
        else readArguments verb { a with input := some value } rest
    else
      match addPositional verb a argument with
      | .error stop => .error stop
      | .ok a => readArguments verb a rest

/-- The command that its arguments make, if none is missing. -/
def command? (verb : Verb) (a : Arguments) : Option Command :=
  match verb, a.positional with
  | .check, [file] => some (.check file)
  | .compose, file :: template :: values =>
    some (.compose file template (values.filterMap keyValue?) a.hex)
  | .scan, [file, scanner] => some (.scan file scanner a.input)
  | _, _ => none

def requestOf (verb : Verb) (arguments : List String) : Request :=
  match readArguments verb Arguments.empty arguments with
  | .error stop => stop.request
  | .ok a =>
    match command? verb a with
    | some command => .run command
    | none => .misuse

/-- Reads short options before the word of the command, given their letters. -/
def readLeading (verbose : Bool) : List Char → Except Request Bool
  | [] => .ok verbose
  | 'v' :: cs => if verbose then .error .misuse else readLeading true cs
  | 'h' :: _ => .error .help
  | 'V' :: _ => .error .version
  | _ => .error .misuse

/-- Reads an option before the word of the command. -/
def readLeadingOption (verbose : Bool) (argument : String) : Except Request Bool :=
  match argument with
  | "--verbose" => if verbose then .error .misuse else .ok true
  | "--help" => .error .help
  | "--version" => .error .version
  | _ =>
    match argument.toList with
    | '-' :: '-' :: _ => .error .misuse
    | _ :: letters => readLeading verbose letters
    | [] => .error .misuse

/-- Reads arguments up to the word of the command. -/
def readRequest (verbose : Bool) : List String → Request
  | [] => .misuse
  | argument :: rest =>
    if isOption argument then
      match readLeadingOption verbose argument with
      | .ok verbose => readRequest verbose rest
      | .error request => request
    else
      match Verb.ofString? argument, rest with
      | some verb, rest => requestOf verb rest
      | none, [] => if argument == "help" then .help else .misuse
      | none, [topic] =>
        if argument == "help" && ((Verb.ofString? topic).isSome || topic == "help") then .help
        else .misuse
      | none, _ => .misuse

def Request.ofArguments (arguments : List String) : Request :=
  readRequest false arguments

end DeviceMessages.CommandLine
