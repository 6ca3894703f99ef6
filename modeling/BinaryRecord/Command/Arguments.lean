import BinaryRecord.Command.Basic

/-!
# The command line

Arguments are taken from left to right. Long options have two dashes and may carry a
value behind an equals sign; short options have one dash and may stand together, the
last of them with its value attached. A lone pair of dashes ends the options. The
first argument that is wrong, or that asks for help, decides.

## Main definitions

* `Request`: what a command line asks for.
* `Request.ofArguments`: the request of a list of arguments.
-/

namespace BinaryRecord

/-- The name of the program. -/
def programName : String := "structpack"

/-- The version of the program. -/
def programVersion : String := "0.1.0"

/-- The options of all commands. -/
inductive Flag where
  | help
  | version
  | verbose
  | fields
  | format
  | input
  | output
  | offset
  | loose
  | hex
  | text
  deriving DecidableEq, Repr

namespace Flag

/-- The name behind two dashes. -/
def long : Flag → String
  | help => "help"
  | version => "version"
  | verbose => "verbose"
  | fields => "fields"
  | format => "format"
  | input => "input"
  | output => "output"
  | offset => "offset"
  | loose => "loose"
  | hex => "hex"
  | text => "text"

/-- The letter behind one dash. -/
def short? : Flag → Option Char
  | help => some 'h'
  | version => some 'V'
  | verbose => some 'v'
  | format => some 'f'
  | input => some 'i'
  | output => some 'o'
  | _ => none

/-- Does the option carry a value? -/
def takesValue : Flag → Bool
  | format | input | output | offset => true
  | _ => false

end Flag

/-- The names of the commands. -/
inductive CommandName where
  | calcsize
  | pack
  | unpack
  deriving DecidableEq, Repr

namespace CommandName

/-- All commands. -/
def all : List CommandName := [calcsize, pack, unpack]

/-- The word on the command line. -/
def label : CommandName → String
  | calcsize => "calcsize"
  | pack => "pack"
  | unpack => "unpack"

/-- The command of a word. -/
def ofLabel? (s : String) : Option CommandName := all.find? (·.label = s)

/-- The options of the command. -/
def flags : CommandName → List Flag
  | calcsize => [.help, .verbose, .fields]
  | pack => [.help, .verbose, .format, .input, .output, .loose, .hex]
  | unpack => [.help, .verbose, .format, .input, .output, .offset, .loose, .text]

/-- How many arguments the command takes that are no options. -/
def operands : CommandName → Nat
  | calcsize => 1
  | pack | unpack => 0

end CommandName

/-- What is wrong with a command line. -/
inductive UsageError where
  | unexpected (argument : String)
  | unknownCommand (name : String)
  | repeated (flag : Flag)
  | missingValue (flag : Flag)
  | needlessValue (flag : Flag)
  | invalidValue (flag : Flag) (value : String)
  | missingCommand
  | missingOperand (what : String)

/-- The sentence that reports what is wrong with a command line. -/
def UsageError.message : UsageError → String
  | unexpected a => s!"unexpected argument '{a}' found"
  | unknownCommand n => s!"unrecognized subcommand '{n}'"
  | repeated f => s!"the argument '--{f.long}' cannot be used multiple times"
  | missingValue f => s!"a value is required for '--{f.long}' but none was supplied"
  | needlessValue f => s!"the argument '--{f.long}' takes no value"
  | invalidValue f v => s!"invalid value '{v}' for '--{f.long}'"
  | missingCommand => "a subcommand is required but none was given"
  | missingOperand w => s!"the required argument '{w}' was not provided"

/-- What a command line asks for. -/
inductive Request where
  /-- Help on a command, or on the program. -/
  | help (topic : Option CommandName)
  /-- The version. -/
  | version
  /-- To run a command. -/
  | run (verbose : Bool) (c : Command)
  /-- Nothing that makes sense. -/
  | wrong (e : UsageError)

/-- What has been taken from the arguments of one command. -/
structure ArgumentScan where
  /-- The options of the command. -/
  flags : List Flag
  /-- What help is on. -/
  topic : Option CommandName
  /-- The options given, with their values. -/
  given : List (Flag × String)
  /-- The other arguments, last first. -/
  operands : List String
  /-- The option that waits for its value. -/
  waiting : Option Flag
  /-- Have the options been ended? -/
  ended : Bool

namespace ArgumentScan

/-- A scan that has taken nothing. -/
def start (flags : List Flag) (topic : Option CommandName) : ArgumentScan :=
  ⟨flags, topic, [], [], none, false⟩

/-- A number without a sign, or with a plus, that fits 64 bits. -/
def word? (s : String) : Option Nat :=
  let digits :=
    match s.toList with
    | '+' :: cs => cs
    | cs => cs
  if digits ≠ [] ∧ digits.all Char.isDigit then
    let n := digits.foldl (fun n c => n * 10 + (c.toNat - '0'.toNat)) 0
    if n < UInt64.size then some n else none
  else none

/-- Takes an option with its value; one without has an empty one. -/
def give (s : ArgumentScan) (f : Flag) (value : String) : Except Request ArgumentScan :=
  if f = .help then .error (.help s.topic)
  else if f = .version then .error .version
  else if (s.given.lookup f).isSome then .error (.wrong (.repeated f))
  else if f = .offset ∧ (word? value).isNone then .error (.wrong (.invalidValue f value))
  else .ok { s with given := (f, value) :: s.given, waiting := none }

/-- Takes an option that may carry a value. -/
def option (s : ArgumentScan) (f : Flag) (attached : Option String) : Except Request ArgumentScan :=
  match f.takesValue, attached with
  | true, some v => s.give f v
  | true, none => .ok { s with waiting := some f }
  | false, some _ => .error (.wrong (.needlessValue f))
  | false, none => s.give f ""

/-- Takes the letters behind one dash. The first that needs a value has the rest for
it, less an equals sign in front. -/
def letters (s : ArgumentScan) (argument : String) : List Char → Except Request ArgumentScan
  | [] => .ok s
  | c :: cs =>
    match s.flags.find? (·.short? = some c) with
    | none => .error (.wrong (.unexpected argument))
    | some f =>
      if f.takesValue then
        match cs with
        | [] => s.option f none
        | '=' :: value => s.option f (some (String.ofList value))
        | value => s.option f (some (String.ofList value))
      else do
        let s ← s.option f none
        letters s argument cs

/-- Splits the text behind two dashes at its first equals sign. -/
def splitLong (cs : List Char) : String × Option String :=
  let name := cs.takeWhile (· ≠ '=')
  let value :=
    match cs.dropWhile (· ≠ '=') with
    | [] => none
    | _ :: value => some (String.ofList value)
  (String.ofList name, value)

/-- Takes an argument that may be an option. -/
def dashed (s : ArgumentScan) (argument : String) : List Char → Except Request ArgumentScan
  | ['-', '-'] => .ok { s with ended := true }
  | '-' :: '-' :: cs =>
    let (name, value) := splitLong cs
    match s.flags.find? (·.long = name) with
    | none => .error (.wrong (.unexpected argument))
    | some f => s.option f value
  | '-' :: c :: cs => s.letters argument (c :: cs)
  | _ => .ok { s with operands := argument :: s.operands }

/-- Is the argument more than a dash and begins with one? -/
def isDashed (argument : String) : Bool :=
  match argument.toList with
  | '-' :: _ :: _ => true
  | _ => false

/-- Takes one argument. -/
def step (s : ArgumentScan) (argument : String) : Except Request ArgumentScan :=
  match s.waiting with
  | some f =>
    if isDashed argument then .error (.wrong (.missingValue f)) else s.give f argument
  | none =>
    if s.ended then .ok { s with operands := argument :: s.operands }
    else s.dashed argument argument.toList

/-- The value given for an option. -/
def value? (s : ArgumentScan) (f : Flag) : Option String := s.given.lookup f

/-- Was the option given? -/
def has (s : ArgumentScan) (f : Flag) : Bool := (s.value? f).isSome

/-- The value that must be given for an option. -/
def require (s : ArgumentScan) (f : Flag) : Except Request String :=
  match s.value? f with
  | some v => .ok v
  | none => .error (.wrong (.missingOperand ("--" ++ f.long)))

/-- Takes all arguments of a command, which has a limit of operands. -/
def takeAll (limit : Nat) : ArgumentScan → List String → Except Request ArgumentScan
  | s, [] =>
    match s.waiting with
    | some f => .error (.wrong (.missingValue f))
    | none => .ok s
  | s, a :: as => do
    let s ← s.step a
    if s.operands.length ≤ limit then takeAll limit s as
    else throw (.wrong (.unexpected a))

/-- The command that the arguments describe. -/
def command (s : ArgumentScan) : CommandName → Except Request Command
  | .calcsize =>
    match s.operands with
    | format :: _ => .ok (.calcsize ⟨format, s.has .fields⟩)
    | [] => .error (.wrong (.missingOperand "FORMAT"))
  | .pack => do
    let format ← s.require .format
    let input ← s.require .input
    return .pack ⟨format, input, s.value? .output, s.has .loose, s.has .hex⟩
  | .unpack => do
    let format ← s.require .format
    let input ← s.require .input
    let offset := ((s.value? .offset).bind word?).getD 0
    return .unpack ⟨format, input, s.value? .output, offset, s.has .loose, s.has .text⟩

end ArgumentScan

namespace Request

/-- A request however it was found. -/
def merge : Except Request Request → Request
  | .ok r => r
  | .error r => r

/-- The request for help on what stands behind the word `help`. -/
def ofHelp : List String → Request
  | [] => help none
  | [topic] =>
    match CommandName.ofLabel? topic with
    | some name => help (some name)
    | none => if topic = "help" then help none else wrong (.unknownCommand topic)
  | topic :: next :: _ =>
    match CommandName.ofLabel? topic with
    | some _ => wrong (.unknownCommand next)
    | none => wrong (.unknownCommand (if topic = "help" then next else topic))

/-- The request of a command with its arguments. -/
def ofCommand (verbose : Bool) (name : CommandName) (arguments : List String) : Request :=
  merge do
    let s ← (ArgumentScan.start name.flags (some name)).takeAll name.operands arguments
    let c ← s.command name
    return run (verbose || s.has .verbose) c

/-- The request of the arguments that a scan of the program's own options has left. -/
def ofRest (s : ArgumentScan) : List String → Request
  | [] => wrong .missingCommand
  | a :: as =>
    match s.step a with
    | .error r => r
    | .ok s =>
      if s.operands = [] then ofRest s as
      else if s.ended then wrong (.unexpected a)
      else if a = "help" then ofHelp as
      else
        match CommandName.ofLabel? a with
        | none => wrong (.unknownCommand a)
        | some name => ofCommand (s.has .verbose) name as

/-- The request of a command line. -/
def ofArguments (arguments : List String) : Request :=
  ofRest (.start [.help, .version, .verbose] none) arguments

end Request

/-! ## Texts -/

/-- The line that shows the version. -/
def versionText : String := programName ++ " " ++ programVersion ++ "\n"

/-- The lines that show how a command, or the program, is used. -/
def usageText : Option CommandName → String
  | none =>
    "Format-string driven binary pack/unpack\n\n" ++
    "Usage: " ++ programName ++ " [OPTIONS] <COMMAND>\n\n" ++
    "Commands:\n" ++
    "  calcsize  Print the number of bytes a format covers\n" ++
    "  pack      Pack a JSON array of values into binary\n" ++
    "  unpack    Unpack binary data into a JSON array of values\n" ++
    "  help      Print this message or the help of a command\n\n" ++
    "Options:\n" ++
    "  -v, --verbose  Enable verbose logging\n" ++
    "  -h, --help     Print help\n" ++
    "  -V, --version  Print version\n"
  | some .calcsize =>
    "Print the number of bytes a format covers\n\n" ++
    "Usage: " ++ programName ++ " calcsize [OPTIONS] <FORMAT>\n\n" ++
    "Options:\n" ++
    "      --fields   Also list the groups of the format\n" ++
    "  -v, --verbose  Enable verbose logging\n" ++
    "  -h, --help     Print help\n"
  | some .pack =>
    "Pack a JSON array of values into binary\n\n" ++
    "Usage: " ++ programName ++ " pack [OPTIONS] --format <FORMAT> --input <INPUT>\n\n" ++
    "Options:\n" ++
    "  -f, --format <FORMAT>  Format string\n" ++
    "  -i, --input <INPUT>    JSON file with an array of values, or - for stdin\n" ++
    "  -o, --output <OUTPUT>  File for the packed bytes\n" ++
    "      --loose            Keep what is packed when values run out\n" ++
    "      --hex              Print the packed bytes as hex\n" ++
    "  -v, --verbose          Enable verbose logging\n" ++
    "  -h, --help             Print help\n"
  | some .unpack =>
    "Unpack binary data into a JSON array of values\n\n" ++
    "Usage: " ++ programName ++ " unpack [OPTIONS] --format <FORMAT> --input <INPUT>\n\n" ++
    "Options:\n" ++
    "  -f, --format <FORMAT>  Format string\n" ++
    "  -i, --input <INPUT>    Binary file, or - for stdin\n" ++
    "  -o, --output <OUTPUT>  JSON file for the decoded values\n" ++
    "      --offset <OFFSET>  Byte offset to start reading at\n" ++
    "      --loose            Keep what is decoded when bytes run out\n" ++
    "      --text             Show byte strings as UTF-8 text\n" ++
    "  -v, --verbose          Enable verbose logging\n" ++
    "  -h, --help             Print help\n"

end BinaryRecord
