import CardMachine.Json.Printer
import CardMachine.Machine

/-!
# Saving a machine

The state of a machine as a JSON document. Every part of it is saved: the mode under its identifier
and data, an instruction by mnemonic, argument and, if it has one, flag.
-/

namespace CardMachine.Snapshot

/-- The version of the documents written here. -/
def currentVersion : Nat := 1

/-- Is `v` the version of a document that can be read? -/
def isKnownVersion (v : Int) : Bool := v = currentVersion

/-- An integer. -/
def int (v : Int) : Json := .number (.int v)

/-- The document of an argument. -/
def encodeArgument : Argument → Json
  | .literal v => int v.toInt
  | .register r => .string r.name

/-- The document of an instruction. -/
def encodeInstruction (i : Instruction) : Json :=
  let argument := ("argument", encodeArgument i.argument)
  let opcode := ("opcode", Json.string i.opcode.mnemonic)
  match i.flag with
  | none => .object [argument, opcode]
  | some f => .object [argument, ("flag", int f.byte), opcode]

/-- The document of a program. -/
def encodeProgram (p : Program) : Json :=
  .array (p.cards.map fun card => .array (card.map encodeInstruction))

/-- The document of the registers. -/
def encodeRegisters (rs : Registers) : Json :=
  .object (Register.all.map fun r => (r.name, int (rs.get r).toInt))

/-- The document of a value of mode data; a float that is not finite is lost. -/
def encodeValue : ModeValue → Json
  | .int v => int v.toInt
  | .float x => if Binary64.isFinite x then .number (.float x) else .null
  | .text s => .string s

/-- The document of mode data. -/
def encodeData (data : ModeData) : Json :=
  .object (data.entries.map fun (key, v) => (key, encodeValue v))

/-- The document of a machine. -/
def encode (m : Machine) : Json :=
  .object [
    ("cardIdx", int m.card.val),
    ("cards", encodeProgram m.program),
    ("ip", int m.ip.val),
    ("mode", .string m.mode.id.text),
    ("modeData", encodeData m.mode.data),
    ("registers", encodeRegisters m.registers),
    ("version", int currentVersion)]

/-- A machine as text. -/
def save (m : Machine) : String := (encode m).text

end CardMachine.Snapshot
