import CardMachine.Console.Command
import CardMachine.Decimal.Format
import CardMachine.Session

/-!
# Carrying out commands

A command reads one file, so what it does is a function of what reading that file gave. It ends in a
report. Only `build` has something to do before that: it writes a file, and the report depends on
whether that works.
-/

namespace CardMachine.Console

/-- What a command prints, and its exit code. -/
structure Report where
  code : Nat := 0
  output : String := ""
  errors : String := ""
  deriving DecidableEq

/-- What is left to do for a command. -/
inductive Plan
  | finish (report : Report)
  /-- Writes a file, then reports that it is written, or why it is not. -/
  | write (path text : String) (written : Report) (failed : String → Report)

/-- Lines of text. -/
def linesOf (texts : List String) : String :=
  String.join (texts.map (· ++ "\n"))

/-- A text with blanks in front, up to a width. -/
def padLeft (width : Nat) (text : String) : String :=
  String.ofList (List.replicate (width - text.length) ' ') ++ text

/-- A text with blanks behind, up to a width. -/
def padRight (width : Nat) (text : String) : String :=
  text ++ String.ofList (List.replicate (width - text.length) ' ')

/-- An assembled instruction and where it was written. -/
def entryLine (e : Assembly.Entry) : String :=
  padLeft 2 (toString e.card) ++ ":" ++ padRight 2 (toString e.index) ++ " " ++
    padRight 16 e.instruction.text ++ " ; " ++ e.location.text

/-- An event as it is traced. -/
def eventLine : Event → String
  | .retired card ip i => s!"trace: {card}:{ip} " ++ i.text
  | .conditionsFailed card ip => s!"trace: {card}:{ip} no eligible instruction"
  | .faultRaised cause card ip => s!"trace: {card}:{ip} fault: " ++ cause.message
  | .modeEntered mode => "trace: mode " ++ mode.text
  | .modeClaimed slot mode => s!"trace: slot {slot} handled " ++ mode.text
  | .modeUnclaimed mode => "trace: nobody handled " ++ mode.text

/-- Where a robot ended up after so many ticks. -/
def summary (r : Robot) (ticks : Nat) : String :=
  let m := r.machine
  let registers := Register.all.map fun reg =>
    reg.name ++ "=" ++ Decimal.text (m.registers.get reg).toInt
  linesOf [
    s!"ticks: {ticks}",
    s!"card: {m.card}  ip: {m.ip}",
    "registers: " ++ " ".intercalate registers,
    "mode: " ++ m.mode.id.text,
    "position: x=" ++ Decimal.fixedText 3 r.body.x ++ " z=" ++ Decimal.fixedText 3 r.body.z ++
      " heading=" ++ Decimal.fixedText 1 (degrees r.body.heading) ++ "deg"]

/-- Assembles what was read from `path`. -/
def assemble (path : String) (content : Except String String) :
    Except (List Assembly.Error) Assembly :=
  match content with
  | .error reason => .error [⟨.unreadable path reason, none⟩]
  | .ok text => Assembly.ofSource path text

/-- The report of an assembly that failed. -/
def failure (errors : List Assembly.Error) : Report :=
  { code := 1, errors := Assembly.reports errors ++ "\n" }

/-- The lines of the warnings of an assembly. -/
def warningLines (a : Assembly) : String :=
  linesOf (a.warnings.map Assembly.Warning.report)

/-- Where `build` writes if it is not told: beside the input. -/
def defaultOutput (input : String) : String :=
  Path.sibling input ((Path.stem? input).getD "out" ++ ".json")

/-- Carries out `build`. -/
def build (input : String) (output : Option String) (verbose : Bool)
    (content : Except String String) : Plan :=
  match assemble input content with
  | .error errors => .finish (failure errors)
  | .ok a =>
    let errors := warningLines a ++ if verbose then linesOf (a.entries.map entryLine) else ""
    let path := output.getD (defaultOutput input)
    let size := s!" ({a.program.cardCount} cards, {a.entries.length} instructions)"
    .write path (Snapshot.save a.machine)
      { output := "Assembled " ++ input ++ size ++ " -> " ++ path ++ "\n", errors }
      fun reason => { code := 1, errors := errors ++ "error: failed to write output: " ++ reason ++ "\n" }

/-- Runs a robot and keeps the lines of its trace. -/
def runRobot (r : Robot) (ticks : Nat) (trace : Bool) : Robot × String :=
  r.foldTicks { tracing := trace } (fun lines events => lines ++ linesOf (events.map eventLine))
    ticks ""

/-- Carries out `run`. -/
def run (input : String) (ticks : Nat) (trace : Bool) (content : Except String String) : Plan :=
  match assemble input content with
  | .error errors => .finish (failure errors)
  | .ok a =>
    let (robot, traced) := runRobot (.ofMachine a.machine) ticks trace
    .finish { output := summary robot ticks, errors := warningLines a ++ traced }

/-- Carries out `disasm`. -/
def disasm (input : String) (content : Except String String) : Plan :=
  match content with
  | .error reason =>
    .finish { code := 1, errors := "error: failed to read " ++ input ++ ": " ++ reason ++ "\n" }
  | .ok text =>
    let loaded := Snapshot.load text
    .finish {
      output := loaded.value.listing
      errors := linesOf (loaded.warnings.map fun w => input ++ ": warning: " ++ w.message) }

namespace Command

/-- The file a command reads. -/
def input : Command → String
  | .build input _ _ => input
  | .run input _ _ => input
  | .disasm input => input

/-- What a command does, given what reading its file gave. -/
def plan (content : Except String String) : Command → Plan
  | .build input output verbose => Console.build input output verbose content
  | .run input ticks trace => Console.run input ticks trace content
  | .disasm input => Console.disasm input content

end Command

/-- The report of a misuse. -/
def Misuse.report : Misuse → Report
  | .helpInstead => { code := 1, output := usage ++ "\n" }
  | misuse => { code := 1, errors := "error: " ++ misuse.message ++ "\n" ++ usage ++ "\n" }

/-- The report of a request for help. -/
def helpReport : Report := { output := usage ++ "\n" }

end CardMachine.Console
