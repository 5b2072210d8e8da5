import CardMachine.Binary64
import CardMachine.Dict
import CardMachine.Word

/-!
# Mode data

Whoever owns a mode keeps its progress in a dictionary of integers, floats and texts. The readers
`int?`, `short?` and `float?` convert between the two kinds of number; text never reads as one.
-/

namespace CardMachine

/-- One value of mode data. -/
inductive ModeValue
  | int (value : Int64)
  | float (value : Float)
  | text (value : String)

namespace ModeValue

/-- Values agree when they are of one kind and equal; a float that is not a number agrees with none,
not even itself. -/
def agrees : ModeValue → ModeValue → Bool
  | .int x, .int y => x == y
  | .float x, .float y => x == y
  | .text x, .text y => x == y
  | _, _ => false

instance : BEq ModeValue := ⟨agrees⟩

/-- The value as an integer. -/
def int? : ModeValue → Option Int64
  | .int v => some v
  | .float x => some (Binary64.toInt64 x)
  | .text _ => none

/-- The value as a float. -/
def float? : ModeValue → Option Float
  | .int v => some (Float.ofInt v.toInt)
  | .float x => some x
  | .text _ => none

/-- The value as a text. -/
def text? : ModeValue → Option String
  | .text s => some s
  | _ => none

end ModeValue

/-- The data of a mode: values by key, the keys in order. -/
structure ModeData where
  entries : List (String × ModeValue) := []
  sorted : Dict.Sorted entries := by exact List.Pairwise.nil

namespace ModeData

/-- Data agree when they have the same keys with values that agree. -/
instance : BEq ModeData := ⟨fun x y => x.entries == y.entries⟩

/-- No data. -/
def empty : ModeData := {}

/-- Sets the value of a key. -/
def insert (data : ModeData) (key : String) (value : ModeValue) : ModeData :=
  ⟨Dict.insert key value data.entries, data.sorted.insert key value⟩

/-- The value of a key. -/
def get? (data : ModeData) (key : String) : Option ModeValue :=
  data.entries.lookup key

/-- The number of keys. -/
def size (data : ModeData) : Nat := data.entries.length

/-- Reads a key as an integer. -/
def int? (data : ModeData) (key : String) : Option Int64 :=
  (data.get? key).bind ModeValue.int?

/-- Reads a key as the nearest word. -/
def short? (data : ModeData) (key : String) : Option Word :=
  (data.int? key).map (Word.clamp ·.toInt)

/-- Reads a key as a float. -/
def float? (data : ModeData) (key : String) : Option Float :=
  (data.get? key).bind ModeValue.float?

/-- Reads a key as a text. -/
def text? (data : ModeData) (key : String) : Option String :=
  (data.get? key).bind ModeValue.text?

/-- The data of the given entries; of two with one key the later counts. -/
def ofList (entries : List (String × ModeValue)) : ModeData :=
  entries.foldl (fun data e => data.insert e.1 e.2) empty

/-- A key reads back what was inserted, and every other key what it had. -/
theorem get?_insert (data : ModeData) (key other : String) (value : ModeValue) :
    (data.insert key value).get? other = if other = key then some value else data.get? other :=
  Dict.lookup_insert key other value data.entries

/-- Data are determined by their entries. -/
theorem ext {x y : ModeData} (h : x.entries = y.entries) : x = y := by
  cases x; cases y; cases h; rfl

end ModeData

end CardMachine
