import CardMachine.Console.Plan

/-!
# A folder in memory

Files by their paths, for running commands without touching a disk. Reading and writing answer as a
disk would: a missing file, a file where a directory is needed, a directory where a file is needed,
and a name that no disk takes are told apart. Nothing is known of what is outside the folder, but
that there are directories above it.
-/

namespace CardMachine.Console

/-- Why a file cannot be read or written. -/
inductive FileFault
  | notFound
  | notADirectory
  | isADirectory
  | nameTooLong
  | notText
  deriving DecidableEq

/-- The wording of a fault. -/
def FileFault.message : FileFault → String
  | .notFound => "No such file or directory (os error 2)"
  | .notADirectory => "Not a directory (os error 20)"
  | .isADirectory => "Is a directory (os error 21)"
  | .nameTooLong => "File name too long (os error 36)"
  | .notText => "stream did not contain valid UTF-8"

/-- The text in the bytes of a file. -/
def decodeText (bytes : ByteArray) : Except FileFault String :=
  match String.fromUTF8? bytes with
  | some text => .ok text
  | none => .error .notText

/-- Files, each under the names that lead to it. -/
structure Folder where
  files : List (List String × ByteArray) := []

namespace Folder

/-- The names of a path, with an empty one for each silent slash. -/
def names (path : String) : List String :=
  (Path.pieces path).map String.ofList

/-- The file at a place. -/
def file? (folder : Folder) (place : List String) : Option ByteArray :=
  folder.files.lookup place

/-- Is a place the folder itself, or above it? A step up from the folder is written `..`. -/
def isAbove (place : List String) : Bool :=
  place.all (· = "..")

/-- The place one step up. -/
def parent (place : List String) : List String :=
  if isAbove place then ".." :: place else place.dropLast

/-- Is there a directory at a place? -/
def isDirectory (folder : Folder) (place : List String) : Bool :=
  isAbove place ||
    folder.files.any fun (name, _) => place.length < name.length && place.isPrefixOf name

/-- Is a name longer than the 255 bytes that a disk takes? -/
def isLongName (name : String) : Bool :=
  255 < name.utf8ByteSize

/-- Checks that a path can be followed at all: it says something, in less than 4096 bytes. -/
def checkPath (path : String) : Except FileFault Unit :=
  if path.isEmpty then .error .notFound
  else if 4096 ≤ path.utf8ByteSize then .error .nameTooLong
  else .ok ()

/-- Where a path starts: in the folder, or outside. -/
def start (path : String) : List String :=
  if Path.isAbsolute path then [".."] else []

/-- Checks that there is a directory at a place. -/
def enter (folder : Folder) (place : List String) : Except FileFault Unit :=
  if folder.isDirectory place then .ok ()
  else if (folder.file? place).isSome then .error .notADirectory
  else .error .notFound

/-- The place that names lead to from `place`. -/
def walk (folder : Folder) (place : List String) : List String → Except FileFault (List String)
  | [] => .ok place
  | name :: rest =>
    match folder.enter place with
    | .error e => .error e
    | .ok () =>
      if name = "" ∨ name = "." then walk folder place rest
      else if name = ".." then walk folder (parent place) rest
      else if isLongName name then .error .nameTooLong
      else walk folder (place ++ [name]) rest

/-- Reads a file. -/
def read (folder : Folder) (path : String) : Except FileFault String :=
  match checkPath path with
  | .error e => .error e
  | .ok () =>
    match folder.walk (start path) (names path) with
    | .error e => .error e
    | .ok place =>
      match folder.file? place with
      | some bytes => decodeText bytes
      | none => if folder.isDirectory place then .error .isADirectory else .error .notFound

/-- The files with one put in, in place of the one that was there. -/
def put (place : List String) (bytes : ByteArray) :
    List (List String × ByteArray) → List (List String × ByteArray)
  | [] => [(place, bytes)]
  | f :: rest => if f.1 = place then (place, bytes) :: rest else f :: put place bytes rest

/-- Writes the file `name` in the directory `directory`. What is written outside is not kept. -/
def writeIn (folder : Folder) (directory : List String) (name text : String) :
    Except FileFault Folder :=
  match folder.enter directory with
  | .error e => .error e
  | .ok () =>
    let place := directory ++ [name]
    if name = "." ∨ name = ".." then .error .isADirectory
    else if isLongName name then .error .nameTooLong
    else if folder.isDirectory place then .error .isADirectory
    else if directory.head? = some ".." then .ok folder
    else .ok ⟨put place text.toUTF8 folder.files⟩

/-- Writes a file. A path that ends in a slash names a directory. -/
def write (folder : Folder) (path text : String) : Except FileFault Folder :=
  match checkPath path with
  | .error e => .error e
  | .ok () =>
    let reversed := (names path).reverse
    match reversed.dropWhile (·.isEmpty) with
    | [] => .error .isADirectory
    | name :: directories =>
      match folder.walk (start path) directories.reverse with
      | .error e => .error e
      | .ok directory =>
        if reversed.head? = some "" then
          match folder.enter directory with
          | .error e => .error e
          | .ok () => .error .isADirectory
        else folder.writeIn directory name text

/-- Finishes a plan. -/
def finish (folder : Folder) : Plan → Report × Folder
  | .finish report => (report, folder)
  | .write path text written failed =>
    match folder.write path text with
    | .ok folder => (written, folder)
    | .error fault => (failed fault.message, folder)

/-- Follows a command line. -/
def run (folder : Folder) (args : List String) : Report × Folder :=
  match readArguments args with
  | .error misuse => (misuse.report, folder)
  | .ok .help => (helpReport, folder)
  | .ok (.command command) =>
    let content := match folder.read command.input with
      | .ok text => .ok text
      | .error fault => .error fault.message
    folder.finish (command.plan content)

end Folder

end CardMachine.Console
