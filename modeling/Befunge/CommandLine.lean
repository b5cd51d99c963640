import Befunge.Session

/-! The command line: reading the arguments, and what the program does once the
source file is read. -/
namespace Befunge.CommandLine

structure Options where
  file : List Char
  stepLimit : Nat
  /-- Budget of the record, in units of 1048576 bytes. -/
  snapshotMegabytes : Nat
  headless : Bool
  deriving DecidableEq

/-- The viewer shows a record; a run without it keeps none. -/
def Options.config (options : Options) : Config where
  stepLimit := options.stepLimit
  recordHistory := !options.headless
  memoryLimit := min (options.snapshotMegabytes * 1048576) (UInt64.size - 1)

inductive Request where
  | help
  | version
  | execute (options : Options)
  deriving DecidableEq

inductive UsageError where
  | unknownOption (name : List Char)
  | unexpectedFile (name : List Char)
  | emptyFileName
  | missingFile
  | repeatedOption (name : List Char)
  | unexpectedValue (name : List Char)
  | missingValue (name : List Char)
  | invalidNumber (name value : List Char)
  deriving DecidableEq

def UsageError.message : UsageError → String
  | unknownOption name => s!"unexpected option {String.ofList name}"
  | unexpectedFile name => s!"unexpected argument {String.ofList name}"
  | emptyFileName => "the file name is empty"
  | missingFile => "a source file is required"
  | repeatedOption name => s!"{String.ofList name} is given more than once"
  | unexpectedValue name => s!"{String.ofList name} takes no value"
  | missingValue name => s!"{String.ofList name} needs a value"
  | invalidNumber name value => s!"{String.ofList name} cannot be {String.ofList value}"

structure Draft where
  file : Option (List Char) := none
  stepLimit : Option Nat := none
  snapshotMegabytes : Option Nat := none
  headless : Bool := false

def Draft.finish (draft : Draft) : Except UsageError Request :=
  match draft.file with
  | none => .error .missingFile
  | some file => .ok (.execute {
      file
      stepLimit := draft.stepLimit.getD 1000000
      snapshotMegabytes := draft.snapshotMegabytes.getD 256
      headless := draft.headless })

def Draft.addFile (draft : Draft) (file : List Char) : Except UsageError Draft :=
  if draft.file.isSome then .error (.unexpectedFile file)
  else if file.isEmpty then .error .emptyFileName
  else .ok {draft with file := some file}

inductive Setting where
  | stepLimit
  | snapshotMegabytes
  deriving DecidableEq

def Setting.name : Setting → List Char
  | stepLimit => "--step-limit".toList
  | snapshotMegabytes => "--snapshot-limit-mb".toList

def number? (text : List Char) : Option Nat :=
  let digits := match text with
    | '+' :: rest => rest
    | _ => text
  if digits.isEmpty || !digits.all Char.isDigit then none
  else
    let value := digits.foldl (fun value digit => 10 * value + (digit.toNat - '0'.toNat)) 0
    if value < UInt64.size then some value else none

def Draft.set (draft : Draft) (setting : Setting) (text : List Char) : Except UsageError Draft :=
  match number? text with
  | none => .error (.invalidNumber setting.name text)
  | some value =>
    match setting with
    | .stepLimit =>
      if draft.stepLimit.isSome then .error (.repeatedOption setting.name)
      else .ok {draft with stepLimit := some value}
    | .snapshotMegabytes =>
      if draft.snapshotMegabytes.isSome then .error (.repeatedOption setting.name)
      else .ok {draft with snapshotMegabytes := some value}

inductive Argument where
  | separator
  | help
  | version
  | headless
  | setting (setting : Setting) (value : Option (List Char))
  | file (name : List Char)
  | refused (error : UsageError)
  deriving DecidableEq

def flag (name : List Char) (value : Option (List Char)) (argument : Argument) : Argument :=
  if value.isSome then .refused (.unexpectedValue name) else argument

def classifyLong (name : List Char) (value : Option (List Char)) : Argument :=
  if name = "--help".toList then flag name value .help
  else if name = "--version".toList then flag name value .version
  else if name = "--headless".toList then flag name value .headless
  else if name = Setting.stepLimit.name then .setting .stepLimit value
  else if name = Setting.snapshotMegabytes.name then .setting .snapshotMegabytes value
  else .refused (.unknownOption name)

/-- Short options can be joined, but each of them ends the reading, so the first
one decides. A single dash is a file name. -/
def classify (text : List Char) : Argument :=
  match text with
  | ['-', '-'] => .separator
  | '-' :: '-' :: _ =>
    let name := text.takeWhile (· != '=')
    match text.dropWhile (· != '=') with
    | [] => classifyLong name none
    | _ :: value => classifyLong name (some value)
  | '-' :: 'h' :: _ => .help
  | '-' :: 'V' :: _ => .version
  | '-' :: _ :: _ => .refused (.unknownOption text)
  | _ => .file text

def readFiles (draft : Draft) : List (List Char) → Except UsageError Request
  | [] => draft.finish
  | name :: rest =>
    match draft.addFile name with
    | .ok draft => readFiles draft rest
    | .error error => .error error

def isValue : List Char → Bool
  | '-' :: _ :: _ => false
  | _ => true

/-- Reads the arguments in order. Help, version and the first mistake end it. -/
def read (draft : Draft) : List (List Char) → Except UsageError Request
  | [] => draft.finish
  | text :: rest =>
    match classify text with
    | .separator => readFiles draft rest
    | .help => .ok .help
    | .version => .ok .version
    | .headless =>
      if draft.headless then .error (.repeatedOption text)
      else read {draft with headless := true} rest
    | .setting setting (some value) =>
      match draft.set setting value with
      | .ok draft => read draft rest
      | .error error => .error error
    | .setting setting none =>
      match rest with
      | [] => .error (.missingValue setting.name)
      | value :: rest =>
        if isValue value then
          match draft.set setting value with
          | .ok draft => read draft rest
          | .error error => .error error
        else .error (.missingValue setting.name)
    | .file name =>
      match draft.addFile name with
      | .ok draft => read draft rest
      | .error error => .error error
    | .refused error => .error error

def parse (arguments : List String) : Except UsageError Request :=
  read {} (arguments.map String.toList)

def versionText : String := "fungetty 0.1.0\n"

def helpText : String :=
  "A time-travel Befunge-93 interpreter with grid visualization\n\n" ++
  "Usage: fungetty [OPTIONS] <FILE>\n\n" ++
  "Arguments:\n" ++
  "  <FILE>  Befunge-93 source file\n\n" ++
  "Options:\n" ++
  "      --step-limit <STEP_LIMIT>\n" ++
  "          Maximum number of cycles before execution is cut off [default: 1000000]\n" ++
  "      --snapshot-limit-mb <SNAPSHOT_LIMIT_MB>\n" ++
  "          Memory budget for recorded snapshots, in MiB [default: 256]\n" ++
  "      --headless\n" ++
  "          Run without the TUI and print the program output to stdout\n" ++
  "  -h, --help\n" ++
  "          Print help\n" ++
  "  -V, --version\n" ++
  "          Print version\n"

structure Outcome where
  exitCode : Nat
  stdout : String
  stderr : String
  deriving DecidableEq

/-- Runs a source file, given its bytes if it can be read. The viewer needs a
terminal, and there is none. -/
def execute {σ : Type} [DirectionSource σ] (options : Options) (content : Option ByteArray)
    (directions : σ) : Outcome :=
  match content.bind String.fromUTF8? with
  | none => ⟨1, "", s!"Cannot read {String.ofList options.file}\n"⟩
  | some source =>
    if options.headless then
      ⟨0, (Session.new source options.config directions).run.machine.output.text, ""⟩
    else ⟨1, "", "The viewer needs a terminal\n"⟩

def answer {σ : Type} [DirectionSource σ] (arguments : List String)
    (content : List Char → Option ByteArray) (directions : σ) : Outcome :=
  match parse arguments with
  | .error error => ⟨2, "", s!"error: {error.message}\n"⟩
  | .ok .help => ⟨0, helpText, ""⟩
  | .ok .version => ⟨0, versionText, ""⟩
  | .ok (.execute options) => execute options (content options.file) directions

end Befunge.CommandLine
