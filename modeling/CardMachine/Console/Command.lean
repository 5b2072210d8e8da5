/-!
# Command lines

The three commands and their options, and what can be wrong with a command line. Asking for help in
place of a command is a request of its own; asking for it after a command shows the same text, as a
refusal.
-/

namespace CardMachine.Console

/-- What a command line asks for. -/
inductive Command
  /-- Assembles a source and saves the machine. -/
  | build (input : String) (output : Option String) (verbose : Bool)
  /-- Assembles a source and runs it on a robot. -/
  | run (input : String) (ticks : Nat) (trace : Bool)
  /-- Lists the program of a saved machine. -/
  | disasm (input : String)
  deriving DecidableEq

/-- A command line that can be followed. -/
inductive Request
  | help
  | command (command : Command)
  deriving DecidableEq

/-- What is wrong with a command line. -/
inductive Misuse
  | missingCommand
  | unknownCommand (text : String)
  | unknownOption (text : String)
  | multipleInputs
  | missingInput
  | missingOutput
  | missingTicks
  | invalidTicks (text : String)
  /-- Help was asked for after a command. -/
  | helpInstead
  deriving DecidableEq

/-- The text shown as help. -/
def usage : String := "Usage: roomba-asm <command> [options]

Commands:
  build  <input> [-o <output>] [--verbose]  Assemble source to a saved state
  run    <input> [--ticks N] [--trace]      Assemble and drive a simulated body
  disasm <state.json>                       List the program in a saved state

Options:
  -o, --output <file>  Output file path (default: input stem + .json)
  -v, --verbose        Print listing to stderr (build only)
  -n, --ticks <N>      Ticks to run (default: 1000)
  -t, --trace          Print trace events to stderr (run only)
  -h, --help           Show this help message

Examples:
  roomba-asm build patrol.cards
  roomba-asm run patrol.md --ticks 200 --trace
  roomba-asm disasm patrol.json
"

/-- The wording of a misuse. -/
def Misuse.message : Misuse → String
  | .missingCommand => "missing command"
  | .unknownCommand text => s!"unknown command: {text}"
  | .unknownOption text => s!"unknown option: {text}"
  | .multipleInputs => "multiple input paths provided"
  | .missingInput => "missing input path"
  | .missingOutput => "missing value for -o"
  | .missingTicks => "missing value for --ticks"
  | .invalidTicks text => s!"invalid tick count: {text}"
  | .helpInstead => usage

/-- The ticks of a run that does not say how many. -/
def defaultTicks : Nat := 1000

/-- Reads a number of ticks: decimal digits, perhaps after a plus sign, of at most 32 bits. -/
def readTicks? (text : String) : Option Nat :=
  let digits := match text.toList with
    | '+' :: rest => rest
    | cs => cs
  if digits.isEmpty || !digits.all Char.isDigit then none
  else
    let n := Nat.ofDigitChars 10 digits 0
    if n ≤ 4294967295 then some n else none

/-- Takes an argument that is not an option as the input. -/
def takeInput (input : Option String) (arg : String) : Except Misuse String :=
  if arg.toList.head? = some '-' then .error (.unknownOption arg)
  else if input.isSome then .error .multipleInputs
  else .ok arg

/-- Does an argument ask for help? -/
def isHelp (arg : String) : Bool := arg = "--help" || arg = "-h"

/-- Reads the arguments of `build`. -/
def readBuild (input output : Option String) (verbose : Bool) :
    List String → Except Misuse Command
  | [] =>
    match input with
    | some path => .ok (.build path output verbose)
    | none => .error .missingInput
  | arg :: rest =>
    if isHelp arg then .error .helpInstead
    else if arg = "--verbose" ∨ arg = "-v" then readBuild input output true rest
    else if arg = "-o" ∨ arg = "--output" then
      match rest with
      | [] => .error .missingOutput
      | value :: rest => readBuild input (some value) verbose rest
    else
      match takeInput input arg with
      | .error e => .error e
      | .ok path => readBuild (some path) output verbose rest

/-- Reads the arguments of `run`. -/
def readRun (input : Option String) (ticks : Nat) (trace : Bool) :
    List String → Except Misuse Command
  | [] =>
    match input with
    | some path => .ok (.run path ticks trace)
    | none => .error .missingInput
  | arg :: rest =>
    if isHelp arg then .error .helpInstead
    else if arg = "--trace" ∨ arg = "-t" then readRun input ticks true rest
    else if arg = "--ticks" ∨ arg = "-n" then
      match rest with
      | [] => .error .missingTicks
      | value :: rest =>
        match readTicks? value with
        | none => .error (.invalidTicks value)
        | some ticks => readRun input ticks trace rest
    else
      match takeInput input arg with
      | .error e => .error e
      | .ok path => readRun (some path) ticks trace rest

/-- Reads the arguments of `disasm`. -/
def readDisasm (input : Option String) : List String → Except Misuse Command
  | [] =>
    match input with
    | some path => .ok (.disasm path)
    | none => .error .missingInput
  | arg :: rest =>
    if isHelp arg then .error .helpInstead
    else
      match takeInput input arg with
      | .error e => .error e
      | .ok path => readDisasm (some path) rest

/-- Reads a command line. -/
def readArguments : List String → Except Misuse Request
  | [] => .error .missingCommand
  | first :: rest =>
    if isHelp first then .ok .help
    else if first = "build" then (readBuild none none false rest).map .command
    else if first = "run" then (readRun none defaultTicks false rest).map .command
    else if first = "disasm" then (readDisasm none rest).map .command
    else .error (.unknownCommand first)

end CardMachine.Console
