import CardMachine.Text.Basic

/-!
# Paths

Relative and absolute paths with `/` between their components. Repeated and trailing slashes, and the
component `.` anywhere but in front, say nothing; the last component that remains is the file name,
unless it is `.` or `..`.
-/

namespace CardMachine.Path

/-- The pieces of a path between its slashes. -/
def pieces (path : String) : List (List Char) :=
  let (first, rest) := Text.cutAt '/' path.toList
  first :: rest

/-- The components of a relative path that say something. -/
def components (path : String) : List String :=
  let (first, rest) := Text.cutAt '/' path.toList
  let named := rest.filter fun c => c ≠ [] ∧ c ≠ ['.']
  let front := if first = [] then [] else [first]
  (front ++ named).map String.ofList

/-- Does the path start at the root? -/
def isAbsolute (path : String) : Bool :=
  path.toList.head? = some '/'

/-- The file name: the last component, if it names something. -/
def fileName? (path : String) : Option String :=
  match (components path).getLast? with
  | none => none
  | some name => if name = "." ∨ name = ".." then none else some name

/-- The part before the last dot of a file name, and the part after it. A name that starts with its
only dot has no second part. -/
def splitName (name : String) : String × Option String :=
  let cs := name.toList.reverse
  let after := cs.takeWhile (· ≠ '.')
  match cs.dropWhile (· ≠ '.') with
  | _ :: before@(_ :: _) => (String.ofList before.reverse, some (String.ofList after.reverse))
  | _ => (name, none)

/-- The extension of the file name. -/
def extension? (path : String) : Option String :=
  (fileName? path).bind fun name => (splitName name).2

/-- The file name without its extension. -/
def stem? (path : String) : Option String :=
  (fileName? path).map fun name => (splitName name).1

/-- Pieces of a path less the silent ones at the end. The first piece stays: in front, nothing is the
root and `.` is written. -/
def trimEnd : List (List Char) → List (List Char)
  | [] => []
  | first :: rest => first :: (rest.reverse.dropWhile fun c => c = [] ∨ c = ['.']).reverse

/-- The directory of `path`, written as it is in `path`. -/
def directory (path : String) : String :=
  let above := trimEnd (trimEnd (pieces path)).dropLast
  if above = [[]] then "/" else "/".intercalate (above.map String.ofList)

/-- The file `name` in the directory of `path`. -/
def sibling (path name : String) : String :=
  let dir := directory path
  if dir.isEmpty || dir.toList.getLast? = some '/' then dir ++ name else dir ++ "/" ++ name

end CardMachine.Path
