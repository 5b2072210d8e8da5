import CardMachine.Mode.Data

/-!
# Modes

The mode of a machine says who owns its next tick. Four modes belong to the machine: it executes, or
it has asked its body to move, turn or sleep. Every other mode belongs to the body or to a peripheral
and is carried as an identifier with data.

The machine's own modes also have an identifier and data (`Mode.id`, `Mode.data`), and
`Mode.ofParts` recovers a mode from them. A mode held as `other` although its identifier is one of
the machine's own is brought into its proper form by `Mode.canonical`.
-/

namespace CardMachine

/-- The name of a mode, written `space:path`. -/
structure ModeId where
  space : String
  path : String
  deriving DecidableEq

namespace ModeId

/-- The space of the machine and its body. -/
def ownSpace : String := "roombas"

/-- A name in the machine's own space. -/
def own (path : String) : ModeId := ⟨ownSpace, path⟩

/-- Reads a name: what stands before the first colon is the space, and a text without a colon is
a path in the machine's own. -/
def parse (text : String) : ModeId :=
  match text.toList.dropWhile (· ≠ ':') with
  | [] => own text
  | _ :: path => ⟨String.ofList (text.toList.takeWhile (· ≠ ':')), String.ofList path⟩

/-- A name as it is written. -/
def text (id : ModeId) : String :=
  id.space ++ ":" ++ id.path

/-- Is the name `path` in the machine's own space? -/
def isOwn (id : ModeId) (path : String) : Bool :=
  id.space = ownSpace && id.path = path

end ModeId

/-- Who owns the next tick. -/
inductive Mode
  /-- The machine: it runs one instruction. -/
  | executing
  /-- The body, asked to move. -/
  | moveStart (distance : Word)
  /-- The body, asked to turn by an angle in degrees. -/
  | rotateStart (angle : Word)
  /-- The body, asked to sleep. -/
  | sleepStart (ticks : Word)
  /-- The body at work, or a peripheral. -/
  | other (id : ModeId) (data : ModeData)

namespace Mode

/-- Path of the executing mode. -/
def executingPath : String := "executing"

/-- Path of a request to move. -/
def moveStartPath : String := "move/start"

/-- Path of a request to turn. -/
def rotateStartPath : String := "rotate/start"

/-- Path of a request to sleep. -/
def sleepStartPath : String := "sleep/start"

/-- Key of the distance of a request to move. -/
def distanceKey : String := "distance"

/-- Key of the angle of a request to turn. -/
def angleKey : String := "angle"

/-- Key of the duration of a request to sleep. -/
def timeKey : String := "time"

/-- Modes agree when they have one form and their contents agree. -/
def agrees : Mode → Mode → Bool
  | .executing, .executing => true
  | .moveStart x, .moveStart y => x == y
  | .rotateStart x, .rotateStart y => x == y
  | .sleepStart x, .sleepStart y => x == y
  | .other i x, .other j y => i == j && x == y
  | _, _ => false

instance : BEq Mode := ⟨agrees⟩

/-- The identifier of a mode. -/
def id : Mode → ModeId
  | .executing => .own executingPath
  | .moveStart _ => .own moveStartPath
  | .rotateStart _ => .own rotateStartPath
  | .sleepStart _ => .own sleepStartPath
  | .other id _ => id

/-- The data of a mode. -/
def data : Mode → ModeData
  | .executing => .empty
  | .moveStart v => ModeData.empty.insert distanceKey (.int (Int64.ofInt v.toInt))
  | .rotateStart v => ModeData.empty.insert angleKey (.int (Int64.ofInt v.toInt))
  | .sleepStart v => ModeData.empty.insert timeKey (.int (Int64.ofInt v.toInt))
  | .other _ data => data

/-- The mode with the given identifier and data. A request without a magnitude asks for zero. -/
def ofParts (id : ModeId) (data : ModeData) : Mode :=
  if id.isOwn executingPath then .executing
  else if id.isOwn moveStartPath then .moveStart ((data.short? distanceKey).getD 0)
  else if id.isOwn rotateStartPath then .rotateStart ((data.short? angleKey).getD 0)
  else if id.isOwn sleepStartPath then .sleepStart ((data.short? timeKey).getD 0)
  else .other id data

/-- The proper form of a mode. -/
def canonical : Mode → Mode
  | .other id data => ofParts id data
  | mode => mode

/-- The identifier of a mode made from an identifier is that identifier. -/
theorem id_ofParts (name : ModeId) (data : ModeData) : (ofParts name data).id = name := by
  have own {path : String} (h : name.isOwn path) : ModeId.own path = name := by
    simp only [ModeId.isOwn, Bool.and_eq_true, decide_eq_true_eq] at h
    obtain ⟨hs, hp⟩ := h
    simp [ModeId.own, ← hs, ← hp]
  rw [ofParts]
  split
  · exact own (by assumption)
  split
  · exact own (by assumption)
  split
  · exact own (by assumption)
  split
  · exact own (by assumption)
  · rfl

/-- The proper form of a mode has the same identifier. -/
theorem id_canonical (mode : Mode) : mode.canonical.id = mode.id := by
  cases mode with
  | other name data => exact id_ofParts name data
  | _ => rfl

/-- Is this the executing mode? -/
def isExecuting : Mode → Bool
  | .executing => true
  | _ => false

end Mode

end CardMachine
