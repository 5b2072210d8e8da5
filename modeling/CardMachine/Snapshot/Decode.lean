import CardMachine.Json.Parser
import CardMachine.Machine
import CardMachine.Snapshot.Encode

/-!
# Loading a machine

Loading never fails. A part of the document that is missing has its default, and so has one that
makes no sense, with a warning. Only an unknown opcode, or a card that is not a list, costs the whole
program.
-/

namespace CardMachine.Snapshot

/-- What was wrong with a document, and so has been put right. -/
inductive Warning
  /-- The text is not JSON. -/
  | notJson
  | notAnObject
  | unknownVersion (version : Int)
  /-- A part of the document makes no sense. -/
  | malformedField (field : String)
  | registerSaturated (register : Register) (value : Int)
  | unknownOpcode (card index : Nat) (name : String)
  | malformedArgument (card index : Nat)
  /-- The program is larger than the pointers can reach. -/
  | unaddressable
  | invalidFlag (card index : Nat)
  deriving DecidableEq

/-- The wording of a warning. In the brackets of `notJson` belong the words of the JSON reader on what is
wrong with the text; the dots stand for them. -/
def Warning.message : Warning → String
  | .notJson => "document is not valid JSON (...); loaded default state"
  | .notAnObject => "document is not a JSON object; loaded default state"
  | .unknownVersion version => s!"unknown document version {version}; loading anyway"
  | .malformedField field => s!"field \x60{field}\x60 is malformed; using default"
  | .registerSaturated register value =>
    "register " ++ register.name ++ s!" value {value} saturated"
  | .unknownOpcode card index name =>
    s!"card {card} instruction {index}: unknown opcode \x60{name}\x60; program discarded"
  | .malformedArgument card index =>
    s!"card {card} instruction {index}: malformed argument; using 0"
  | .unaddressable =>
    "program exceeds 256 cards or 256 instructions per card; extras dropped"
  | .invalidFlag card index => s!"card {card} instruction {index}: invalid flag; using EQU"

/-- Something read from a document, with warnings in the order of the document. -/
structure Decoded (α : Type) where
  value : α
  warnings : List Warning := []

/-- The fields of a document. -/
abbrev Fields := List (String × Json)

/-- Checks the version. -/
def decodeVersion (doc : Fields) : List Warning :=
  match doc.lookup "version" with
  | none => []
  | some raw =>
    match raw.int64? with
    | none => [.malformedField "version"]
    | some v => if isKnownVersion v then [] else [.unknownVersion v]

/-- Reads a pointer. -/
def decodePointer (doc : Fields) (field : String) : Decoded Pointer :=
  match doc.lookup field with
  | none => ⟨.zero, []⟩
  | some raw =>
    match raw.uint64? with
    | some v => if h : v < 256 then ⟨⟨v, h⟩, []⟩ else ⟨.zero, [.malformedField field]⟩
    | none => ⟨.zero, [.malformedField field]⟩

/-- Reads one register into `rs`. -/
def decodeRegister (fields : Fields) (rs : Registers) (r : Register) : Decoded Registers :=
  match fields.lookup r.name with
  | none => ⟨rs, []⟩
  | some raw =>
    match raw.int64? with
    | none => ⟨rs, [.malformedField "registers"]⟩
    | some v =>
      ⟨rs.set r v, if (saturate v).toInt = v then [] else [.registerSaturated r v]⟩

/-- Reads one more register, after those in `d`. -/
def decodeNextRegister (fields : Fields) (d : Decoded Registers) (r : Register) : Decoded Registers :=
  let next := decodeRegister fields d.value r
  ⟨next.value, d.warnings ++ next.warnings⟩

/-- Reads the registers. -/
def decodeRegisters (doc : Fields) : Decoded Registers :=
  match doc.lookup "registers" with
  | none => ⟨{}, []⟩
  | some raw =>
    match raw.object? with
    | none => ⟨{}, [.malformedField "registers"]⟩
    | some fields => Register.all.foldl (decodeNextRegister fields) ⟨{}, []⟩

/-- Reads an argument. -/
def decodeArgument? : Option Json → Option Argument
  | some (.string name) => (Register.ofName? name).map .register
  | some (.number n) => ((Json.number n).int64?.bind Word.ofInt?).map .literal
  | _ => none

/-- Reads a flag, and whether it was a proper one. -/
def decodeFlag : Option Json → Option Flag × Bool
  | none => (none, true)
  | some .null => (none, true)
  | some raw =>
    match raw.int64? with
    | none => (some .equ, false)
    | some v => (some (.ofByte v), -1 ≤ v && v ≤ 1)

/-- Reads the instruction at a position; an unknown opcode cannot be read. -/
def decodeInstruction (card : Nat) (raw : Json) (index : Nat) : Decoded (Option Instruction) :=
  let name := ((raw.field? "opcode").bind Json.string?).getD ""
  match Opcode.ofMnemonic? name with
  | none => ⟨none, [.unknownOpcode card index name]⟩
  | some opcode =>
    let argument := decodeArgument? (raw.field? "argument")
    let (flag, proper) := decodeFlag (raw.field? "flag")
    ⟨some ⟨opcode, argument.getD (.literal 0), flag⟩,
      (if argument.isSome then [] else [.malformedArgument card index]) ++
        (if proper then [] else [.invalidFlag card index])⟩

/-- Reads items one after the other, the first being the `index`-th, until one cannot be read. -/
def decodeAll {α : Type} (item : Json → Nat → Decoded (Option α)) (index : Nat) :
    List Json → Decoded (Option (List α))
  | [] => ⟨some [], []⟩
  | raw :: rest =>
    let first := item raw index
    match first.value with
    | none => ⟨none, first.warnings⟩
    | some a =>
      let others := decodeAll item (index + 1) rest
      ⟨others.value.map (a :: ·), first.warnings ++ others.warnings⟩

/-- Reads the `index`-th card. -/
def decodeCard (raw : Json) (index : Nat) : Decoded (Option Card) :=
  match raw.array? with
  | none => ⟨none, [.malformedField "cards"]⟩
  | some items => decodeAll (decodeInstruction index) 0 items

/-- Reads the program. -/
def decodeProgram (doc : Fields) : Decoded Program :=
  match doc.lookup "cards" with
  | none => ⟨{}, []⟩
  | some raw =>
    match raw.array? with
    | none => ⟨{}, [.malformedField "cards"]⟩
    | some items =>
      let read := decodeAll decodeCard 0 items
      match read.value with
      | none => ⟨{}, read.warnings⟩
      | some cards =>
        ⟨.ofCards cards, read.warnings ++ if Addressable cards then [] else [.unaddressable]⟩

/-- Reads a value of mode data. An integer that needs all 64 bits, with none left for a sign, is read
as a float. -/
def decodeValue? : Json → Option ModeValue
  | .number (.int v) =>
    match (Json.number (.int v)).int64? with
    | some v => some (.int (Int64.ofInt v))
    | none => some (.float (UInt64.ofNat v.toNat).toFloat)
  | .number (.float x) => some (.float x)
  | .string s => some (.text s)
  | _ => none

/-- Reads one more entry of mode data, after those in `d`. -/
def decodeNextEntry (d : Decoded ModeData) (entry : String × Json) : Decoded ModeData :=
  match decodeValue? entry.2 with
  | some v => ⟨d.value.insert entry.1 v, d.warnings⟩
  | none => ⟨d.value, d.warnings ++ [.malformedField "modeData"]⟩

/-- Reads the mode data. -/
def decodeData (doc : Fields) : Decoded ModeData :=
  match doc.lookup "modeData" with
  | none => ⟨.empty, []⟩
  | some raw =>
    match raw.object? with
    | none => ⟨.empty, [.malformedField "modeData"]⟩
    | some entries => entries.foldl decodeNextEntry ⟨.empty, []⟩

/-- Reads the identifier of the mode. -/
def decodeModeId (doc : Fields) : Decoded (Option ModeId) :=
  match doc.lookup "mode" with
  | none => ⟨none, []⟩
  | some (.string text) =>
    if text.isEmpty then ⟨none, [.malformedField "mode"]⟩ else ⟨some (.parse text), []⟩
  | some _ => ⟨none, [.malformedField "mode"]⟩

/-- Reads a machine from the fields of a document. -/
def decodeFields (doc : Fields) : Decoded Machine :=
  let ip := decodePointer doc "ip"
  let card := decodePointer doc "cardIdx"
  let program := decodeProgram doc
  let registers := decodeRegisters doc
  let data := decodeData doc
  let id := decodeModeId doc
  let mode := match id.value with
    | none => .executing
    | some id => .ofParts id data.value
  ⟨⟨ip.value, card.value, registers.value, program.value, mode⟩,
    decodeVersion doc ++ ip.warnings ++ card.warnings ++ program.warnings ++ registers.warnings ++
      data.warnings ++ id.warnings⟩

/-- Reads a machine from a document. -/
def decode (doc : Json) : Decoded Machine :=
  match doc.object? with
  | none => ⟨{}, [.notAnObject]⟩
  | some fields => decodeFields fields

/-- Reads a machine from a text. -/
def load (text : String) : Decoded Machine :=
  match Json.parse? text with
  | none => ⟨{}, [.notJson]⟩
  | some doc => decode doc

end CardMachine.Snapshot
