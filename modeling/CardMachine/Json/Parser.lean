import CardMachine.Json.Numeral
import CardMachine.Text.Basic

/-!
# Reading JSON

The grammar is that of the standard, and nothing beyond it: no comments, no comma at the end, no
control character in a string, no half of a surrogate pair. Arrays and objects nest at most 127 deep.
Of several fields with one name the last counts.

A reader takes the rest of the text and gives what it read and the rest after it. Whatever repeats,
the characters of a string and the items of a list, takes at least one character each time, so the
length of the whole text bounds every repetition.
-/

namespace CardMachine.Json

export Text (hexValue?)

/-- The blanks of JSON. -/
def isBlank (c : Char) : Bool :=
  c = ' ' || c = '\t' || c = '\n' || c = '\r'

/-- Drops blanks. -/
def skipBlanks (cs : List Char) : List Char :=
  cs.dropWhile isBlank

/-- Reads four hexadecimal digits. -/
def readHex4 : Reader Nat
  | a :: b :: c :: d :: rest =>
    match hexValue? a, hexValue? b, hexValue? c, hexValue? d with
    | some a, some b, some c, some d => some (((a * 16 + b) * 16 + c) * 16 + d, rest)
    | _, _, _, _ => none
  | _ => none

/-- Reads the second half of a surrogate pair whose first half is `high`. -/
def readLowSurrogate (high : Nat) : Reader Char
  | '\\' :: 'u' :: rest =>
    match readHex4 rest with
    | some (low, rest) =>
      if 0xDC00 ≤ low ∧ low ≤ 0xDFFF then
        some (Char.ofNat (0x10000 + (high - 0xD800) * 0x400 + (low - 0xDC00)), rest)
      else none
    | none => none
  | _ => none

/-- Reads a character given by its code. -/
def readCode : Reader Char := fun cs =>
  match readHex4 cs with
  | some (n, rest) =>
    if 0xD800 ≤ n ∧ n ≤ 0xDBFF then readLowSurrogate n rest
    else if 0xDC00 ≤ n ∧ n ≤ 0xDFFF then none
    else some (Char.ofNat n, rest)
  | none => none

/-- Reads what follows a backslash. -/
def readEscape : Reader Char
  | [] => none
  | c :: rest =>
    if c = '"' then some ('"', rest)
    else if c = '\\' then some ('\\', rest)
    else if c = '/' then some ('/', rest)
    else if c = 'b' then some ('\x08', rest)
    else if c = 'f' then some ('\x0c', rest)
    else if c = 'n' then some ('\n', rest)
    else if c = 'r' then some ('\r', rest)
    else if c = 't' then some ('\t', rest)
    else if c = 'u' then readCode rest
    else none

/-- Reads one character of a string. -/
def readChar : Reader Char
  | [] => none
  | c :: rest =>
    if c = '\\' then readEscape rest
    else if c.toNat < 0x20 then none
    else some (c, rest)

/-- Reads the rest of a string, `seen` being its characters so far, the last one first. -/
def readString : Nat → List Char → Reader String
  | 0, _, _ => none
  | fuel + 1, seen, cs =>
    match cs with
    | '"' :: rest => some (String.ofList seen.reverse, rest)
    | cs =>
      match readChar cs with
      | some (c, rest) => readString fuel (c :: seen) rest
      | none => none

/-- Reads one or more items with commas between them, up to `close`; `seen` are the items so far, the
last one first. -/
def readItems {α : Type} (item : Reader α) (close : Char) : Nat → List α → Reader (List α)
  | 0, _, _ => none
  | fuel + 1, seen, cs =>
    match item cs with
    | none => none
    | some (v, rest) =>
      match skipBlanks rest with
      | [] => none
      | c :: rest =>
        if c = ',' then readItems item close fuel (v :: seen) rest
        else if c = close then some ((v :: seen).reverse, rest)
        else none

/-- Reads a list of at most `size` items up to `close`. -/
def readList {α : Type} (size : Nat) (item : Reader α) (close : Char) : Reader (List α) := fun cs =>
  match skipBlanks cs with
  | [] => none
  | c :: rest => if c = close then some ([], rest) else readItems item close size [] (c :: rest)

/-- Reads a field of an object. -/
def readField (size : Nat) (value : Reader Json) : Reader (String × Json) := fun cs =>
  match skipBlanks cs with
  | '"' :: rest =>
    match readString size [] rest with
    | none => none
    | some (name, rest) =>
      match skipBlanks rest with
      | ':' :: rest => (value rest).map fun (v, rest) => ((name, v), rest)
      | _ => none
  | _ => none

/-- The fields of an object, in order; of several with one name the last. -/
def fieldsOf (fields : List (String × Json)) : List (String × Json) :=
  fields.foldl (fun acc f => Dict.insert f.1 f.2 acc) []

/-- Reads the rest of a word. -/
def readWord (word : List Char) (v : Json) : Reader Json := fun cs =>
  if word.isPrefixOf cs then some (v, cs.drop word.length) else none

/-- Reads a value that is not an array or an object. -/
def readScalar (size : Nat) : Reader Json := fun cs =>
  match cs with
  | [] => none
  | c :: rest =>
    if c = '"' then (readString size [] rest).map fun (s, rest) => (.string s, rest)
    else if c = 'n' then readWord "null".toList .null cs
    else if c = 't' then readWord "true".toList (.bool true) cs
    else if c = 'f' then readWord "false".toList (.bool false) cs
    else (readNumber cs).map fun (n, rest) => (.number n, rest)

/-- Reads a value in which arrays and objects nest at most `depth` deep, in a text of length `size`. -/
def readValue (size : Nat) : Nat → Reader Json
  | 0, cs =>
    match skipBlanks cs with
    | [] => none
    | c :: rest => if c = '[' ∨ c = '\x7b' then none else readScalar size (c :: rest)
  | depth + 1, cs =>
    match skipBlanks cs with
    | [] => none
    | c :: rest =>
      if c = '[' then
        (readList size (readValue size depth) ']' rest).map fun (items, rest) =>
          (.array items, rest)
      else if c = '\x7b' then
        (readList size (readField size (readValue size depth)) '\x7d' rest).map
          fun (fields, rest) => (.object (fieldsOf fields), rest)
      else readScalar size (c :: rest)

/-- How deep arrays and objects may nest. -/
def depthLimit : Nat := 127

/-- Reads a whole text. -/
def parse? (text : String) : Option Json :=
  let cs := text.toList
  match readValue cs.length depthLimit cs with
  | none => none
  | some (v, rest) => if (skipBlanks rest).isEmpty then some v else none

end CardMachine.Json
