import ReaderGen.Generate
import ReaderGen.Text

/-!
# ReaderGen.CommandLine -- arguments, and what a run prints

Options and the two positional arguments may be mixed; two hyphens alone end the
options. A value follows its option behind `=` or as the next argument, which then must
not start with a hyphen.

**The first problem met ends the reading.** A value taken from an argument of its own,
and a positional argument, is looked at only when the next known argument or the end is
reached; so an unknown argument right behind it is reported first. Help is a stop of its
own, met in the same order.

A run prints its text and exits with zero, or prints one diagnostic and exits with one.
-/

namespace ReaderGen.CommandLine

/-! ## Problems -/

/-- Why a value is not a number of 32 bits. -/
inductive NumberError where
  | empty
  | invalidDigit
  | tooLarge
  | tooSmall
  | outOfRange (value : Int)
  deriving DecidableEq, Repr

/-- The reason at the end of the diagnostic. -/
def NumberError.reason : NumberError → String
  | empty => "cannot parse integer from empty string"
  | invalidDigit => "invalid digit found in string"
  | tooLarge => "number too large to fit in target type"
  | tooSmall => "number too small to fit in target type"
  | outOfRange value => toString value ++ " is not in 0..=4294967295"

/-- Why arguments are refused. Options and arguments are given as they are shown. -/
inductive UsageError where
  | unexpectedArgument (text : String)
  | valueRequired (name : String)
  | invalidValue (value name : String) (cause : NumberError)
  | repeated (name : String)
  | unexpectedValue (value name : String)
  deriving DecidableEq, Repr

/-- An argument between quotes, without terminal controls. -/
def shown (argument : String) : String := "'" ++ Text.plain argument ++ "'"

/-- The text of a problem, which may quote an argument of several lines. -/
def UsageError.text : UsageError → String
  | unexpectedArgument text => "unexpected argument " ++ shown text ++ " found"
  | valueRequired name => "a value is required for " ++ shown name ++ " but none was supplied"
  | invalidValue value name cause =>
    "invalid value " ++ shown value ++ " for " ++ shown name ++ ": " ++ cause.reason
  | repeated name => "the argument " ++ shown name ++ " cannot be used multiple times"
  | unexpectedValue value name =>
    "unexpected value " ++ shown value ++ " for " ++ shown name ++
      " found; no more were expected"

/-- The first line of a text, without blanks at its end. -/
def firstLine (text : String) : String :=
  let line := text.toList.takeWhile (· ≠ '\n')
  String.ofList (line.reverse.dropWhile Text.isBlank).reverse

/-- The diagnostic for refused arguments: the first line of its text. -/
def UsageError.message (e : UsageError) : String := firstLine e.text

/-! ## Numbers -/

/-- The value of digits behind `value`, as long as it stays within `limit`. -/
def readDigits (limit : Nat) (overflow : NumberError) (value : Nat) :
    List Char → Except NumberError Nat
  | [] => .ok value
  | c :: rest =>
    if !c.isDigit then .error .invalidDigit
    else
      let value := 10 * value + (c.toNat - '0'.toNat)
      if limit < value then .error overflow else readDigits limit overflow value rest

/-- The greatest signed number of 64 bits. -/
def maxInteger : Nat := 9223372036854775807

/-- A signed number of 64 bits, with an optional sign. -/
def readInteger (text : String) : Except NumberError Int :=
  match text.toList with
  | [] => .error .empty
  | ['+'] | ['-'] => .error .invalidDigit
  | '-' :: digits => (readDigits (maxInteger + 1) .tooSmall 0 digits).map Int.negOfNat
  | '+' :: digits => (readDigits maxInteger .tooLarge 0 digits).map Int.ofNat
  | digits => (readDigits maxInteger .tooLarge 0 digits).map Int.ofNat

/-- A number of 32 bits. -/
def readUInt32 (text : String) : Except NumberError UInt32 := do
  let value ← readInteger text
  if 0 ≤ value ∧ value < UInt32.size then .ok (UInt32.ofNat value.toNat)
  else .error (.outOfRange value)

/-! ## Reading arguments -/

/-- An option that takes a number. -/
inductive Setting where
  | alignment
  | refWidth
  deriving DecidableEq, Repr

/-- How an option is shown. -/
def Setting.name : Setting → String
  | alignment => "--alignment <BYTES>"
  | refWidth => "--ref-width <BYTES>"

/-- An argument that has been taken but not looked at yet. -/
inductive Pending where
  | action (text : String)
  | schema (text : String)
  | setting (setting : Setting) (value : Option String)
  deriving DecidableEq, Repr

/-- What has been read so far. -/
structure Progress where
  action : Option String := none
  schema : Option String := none
  alignment : Option UInt32 := none
  refWidth : Option UInt32 := none
  printLayout : Bool := false
  verbose : Bool := false
  positionals : Nat := 0
  pending : Option Pending := none
  deriving DecidableEq, Repr

/-- Why the reading stops before the end. -/
inductive Stop where
  | help
  | usage (error : UsageError)
  deriving DecidableEq, Repr

namespace Progress

/-- The number that an option was given. -/
def setting? (p : Progress) : Setting → Option UInt32
  | .alignment => p.alignment
  | .refWidth => p.refWidth

/-- The progress with a number for an option. -/
def withSetting (p : Progress) (setting : Setting) (value : UInt32) : Progress :=
  match setting with
  | .alignment => { p with alignment := some value }
  | .refWidth => { p with refWidth := some value }

/-- Gives an option its number, once. -/
def assign (p : Progress) (setting : Setting) (text : String) : Except Stop Progress :=
  if (p.setting? setting).isSome then .error (.usage (.repeated setting.name))
  else
    match readUInt32 text with
    | .error cause => .error (.usage (.invalidValue text setting.name cause))
    | .ok value => .ok (p.withSetting setting value)

/-- Looks at the argument that has been taken last. -/
def settle (p : Progress) : Except Stop Progress :=
  let done := { p with pending := none }
  match p.pending with
  | none => .ok p
  | some (.action text) => .ok { done with action := some text }
  | some (.schema text) =>
    if text.isEmpty then .error (.usage (.valueRequired "[SCHEMA]"))
    else .ok { done with schema := some text }
  | some (.setting setting none) => .error (.usage (.valueRequired setting.name))
  | some (.setting setting (some text)) => done.assign setting text

/-- An option that takes a number, with its value if that was attached. -/
def takeSetting (p : Progress) (setting : Setting) (value : Option String) :
    Except Stop Progress := do
  let p ← p.settle
  match value with
  | some text => p.assign setting text
  | none => .ok { p with pending := some (.setting setting none) }

/-- The option that asks for the layout. -/
def takePrintLayout (p : Progress) : Except Stop Progress := do
  let p ← p.settle
  if p.printLayout then .error (.usage (.repeated "--print-ir"))
  else .ok { p with printLayout := true }

/-- The option that asks for a log. -/
def takeVerbose (p : Progress) : Except Stop Progress := do
  let p ← p.settle
  if p.verbose then .error (.usage (.repeated "--verbose")) else .ok { p with verbose := true }

/-- The option that asks for help. -/
def takeHelp (p : Progress) : Except Stop Progress := do
  let _ ← p.settle
  .error .help

/-- An option that must not have a value attached. -/
def takeFlag (name : String) (value : Option String) (take : Except Stop Progress) :
    Except Stop Progress :=
  match value with
  | some text => .error (.usage (.unexpectedValue text name))
  | none => take

/-- A long option, with the value behind its equals sign. -/
def takeLong (p : Progress) (name : String) (value : Option String) : Except Stop Progress :=
  match name with
  | "alignment" => p.takeSetting .alignment value
  | "ref-width" => p.takeSetting .refWidth value
  | "print-ir" => takeFlag "--print-ir" value p.takePrintLayout
  | "verbose" => takeFlag "--verbose" value p.takeVerbose
  | "help" => takeFlag "--help" value p.takeHelp
  | _ => .error (.usage (.unexpectedArgument ("--" ++ name)))

/-- The letters behind one hyphen, each an option. -/
def takeShorts (p : Progress) : List Char → Except Stop Progress
  | [] => .ok p
  | 'v' :: rest => do takeShorts (← p.takeVerbose) rest
  | 'h' :: _ => p.takeHelp
  | c :: _ => .error (.usage (.unexpectedArgument (String.ofList ['-', c])))

/-- A positional argument: the action first, then the path of the schema. -/
def takePositional (p : Progress) (text : String) : Except Stop Progress := do
  let positionals := p.positionals + 1
  match p.positionals with
  | 0 => .ok { (← p.settle) with pending := some (.action text), positionals }
  | 1 => .ok { (← p.settle) with pending := some (.schema text), positionals }
  | _ => .error (.usage (.unexpectedArgument text))

/-- An argument that is no option: the value that an option waits for, or a positional
argument. -/
def takePlain (p : Progress) (text : String) : Except Stop Progress :=
  match p.pending with
  | some (.setting setting none) =>
    .ok { p with pending := some (.setting setting (some text)) }
  | _ => p.takePositional text

/-- Reads positional arguments to the end. -/
def takeRest (p : Progress) : List String → Except Stop Progress
  | [] => p.settle
  | text :: rest => do takeRest (← p.takePositional text) rest

/-- The name and the attached value of a long option. -/
def splitLong (body : List Char) : String × Option String :=
  let name := body.takeWhile (· ≠ '=')
  (String.ofList name,
    match body.drop name.length with
    | [] => none
    | _ :: value => some (String.ofList value))

/-- Reads arguments to the end. -/
def takeAll (p : Progress) : List String → Except Stop Progress
  | [] => p.settle
  | text :: rest => do
    match text.toList with
    | ['-', '-'] => p.takeRest rest
    | '-' :: '-' :: body =>
      let (name, value) := splitLong body
      takeAll (← p.takeLong name value) rest
    | '-' :: c :: letters => takeAll (← p.takeShorts (c :: letters)) rest
    | _ => takeAll (← p.takePlain text) rest

/-- The request that the arguments make. -/
def request (p : Progress) : Request where
  action := p.action
  schemaPath := p.schema
  alignment := p.alignment.getD 4
  refWidth := p.refWidth.getD 3
  printLayout := p.printLayout

end Progress

/-- The request that arguments make, or why there is none. -/
def parse (args : List String) : Except Stop Request :=
  (Progress.takeAll {} args).map Progress.request

/-- The path of the file that a run with these arguments reads, if it comes to that. -/
def schemaPath? (args : List String) : Option String :=
  match parse args with
  | .error _ => none
  | .ok request => request.schemaPath?.toOption

/-! ## Runs -/

/-- What a run leaves behind. -/
structure Outcome where
  exitCode : UInt8
  stdout : String
  stderr : String
  deriving DecidableEq, Repr

/-- The help text. -/
def helpText : String :=
  String.join ([
    "Generate zero-copy C++ readers from ASDL schemas",
    "",
    "Usage: asdl-gen [OPTIONS] [ACTION] [SCHEMA]",
    "",
    "Arguments:",
    "  [ACTION]  ",
    "  [SCHEMA]  ",
    "",
    "Options:",
    "      --alignment <BYTES>  [default: 4]",
    "      --ref-width <BYTES>  [default: 3]",
    "      --print-ir           ",
    "  -v, --verbose            ",
    "  -h, --help               Print help"].map (· ++ "\n"))

/-- A run that printed its text. -/
def Outcome.success (text : String) : Outcome := ⟨0, text, ""⟩

/-- A run that ended with a diagnostic. -/
def Outcome.failure (message : String) : Outcome := ⟨1, "", "FATAL: " ++ message ++ "\n"⟩

/-- The run of a request. -/
def outcomeOf (result : Except RequestError String) : Outcome :=
  match result with
  | .ok text => .success text
  | .error fault => .failure fault.message

/-- The run with these arguments, where `read` gives the text of a file and `explain` tells why a
text is no schema in YAML. -/
def run (args : List String) (read : String → Except ReadError String)
    (explain : String → String) : Outcome :=
  match parse args with
  | .error .help => .success helpText
  | .error (.usage e) => .failure e.message
  | .ok request => outcomeOf (request.run read explain)

end ReaderGen.CommandLine
