import CardMachine.Line.Basic
import CardMachine.Line.Numeral
import CardMachine.Line.Token
import CardMachine.Line.Vocabulary

/-!
# Reading a line

A line is one of

    .card [name]
    name:
    [name:] [flag] mnemonic operand

and the first thing wrong with it, from the left, is reported. Only an operand too many comes before
its turn: it is reported before the first operand is looked at.
-/

namespace CardMachine.Line

open Vocabulary

/-- Checks that a token can be a name. -/
def readName (name : String) (column : Nat) : Except LineError String :=
  if !isIdentifier name then .error ⟨column, .invalidName name⟩
  else if isReserved name then .error ⟨column, .reservedName name⟩
  else .ok name

/-- Reads an operand. -/
def readOperand (token : Token) : Except LineError Operand :=
  match register? token.text with
  | some r => .ok (.register r)
  | none =>
    if isIdentifier token.text then .ok (.symbol token.text)
    else
      match (value? token.text.toList).bind Word.ofInt? with
      | some v => .ok (.literal v)
      | none => .error ⟨token.column, .invalidOperand token.text⟩

/-- Reads what follows a directive's dot. -/
def readDirective (name : String) (column : Nat) (args : List Token) : Except LineError Line :=
  if Text.upper name ≠ "CARD" then .error ⟨column, .unknownDirective name⟩
  else
    match args with
    | [] => .ok (.card none)
    | [arg] => (readName arg.text arg.column).map fun name => .card (some name)
    | _ :: extra :: _ => .error ⟨extra.column, .unexpectedToken extra.text⟩

/-- Reads the operand list of an instruction. -/
def readOperands (flag : Option Flag) (mnemonic : Token) (operands : List Token) :
    Except LineError WrittenInstruction :=
  match opcode? mnemonic.text with
  | none => .error ⟨mnemonic.column, .unknownMnemonic mnemonic.text⟩
  | some opcode =>
    match operands with
    | [] => .error ⟨mnemonic.endColumn, .missingOperand⟩
    | [token] => (readOperand token).map fun operand => ⟨flag, opcode, operand, token.column⟩
    | _ :: extra :: _ => .error ⟨extra.column, .unexpectedToken extra.text⟩

/-- Reads an instruction that starts with `first`. -/
def readInstruction (first : Token) (rest : List Token) : Except LineError WrittenInstruction :=
  match flag? first.text with
  | none => readOperands none first rest
  | some flag =>
    match rest with
    | [] => .error ⟨first.endColumn, .missingOperand⟩
    | mnemonic :: operands => readOperands (some flag) mnemonic operands

/-- The name in front of a colon, if the token ends in one. -/
def labelName? (text : String) : Option String :=
  let cs := text.toList
  if cs.getLast? = some ':' then some (String.ofList cs.dropLast) else none

/-- Reads the tokens of a line. -/
def ofTokens : List Token → Except LineError Line
  | [] => .ok .blank
  | first :: rest =>
    match first.text.toList with
    | '.' :: name => readDirective (String.ofList name) first.column rest
    | _ =>
      match labelName? first.text with
      | none => (readInstruction first rest).map (.instruction none)
      | some name =>
        match readName name first.column with
        | .error e => .error e
        | .ok name =>
          match rest with
          | [] => .ok (.label name)
          | next :: rest => (readInstruction next rest).map (.instruction (some name))

/-- Reads a line. -/
def parse (text : String) : Except LineError Line :=
  ofTokens (Token.ofLine text)

end CardMachine.Line
