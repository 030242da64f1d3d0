import TapeMachine.File.Tree
import TapeMachine.Program.Json

namespace TapeMachine.Program

/-- Why a program could not be loaded. -/
inductive LoadError where
  | unreadable (path : String) (fault : ReadFault)
  | undecodable (fault : Json.Fault)
  | noDirectory (path : String)
  | unreadableDirectory (path : String) (fault : ReadFault)

/-- The text of the error. That of an undecodable text ends where the line and the column of the fault
would follow. -/
def LoadError.message : LoadError → String
  | unreadable path fault => s!"File error: Failed to read file {path}: {fault.message}"
  | undecodable fault => s!"Configuration error: {fault.message}"
  | noDirectory path => s!"File error: Directory {path} does not exist"
  | unreadableDirectory path fault =>
    s!"File error: Failed to read directory {path}: {fault.message}"

/-- The program in a JSON text. -/
def ofJsonText (text : String) : Except LoadError Program := (ofJson text).mapError .undecodable

/-- The program in a file. A file whose extension is not `json` holds rules alone. A program without
a name takes the name of its file. -/
def ofFile (path : String) (content : Content) : Except LoadError Program := do
  let text ← (Content.text content).mapError (.unreadable path)
  let program ←
    if Path.extension? path = some "json" then ofJsonText text else .ok (ofTransitions text)
  return if program.name = "" then { program with name := Path.stem path } else program

/-- The program in the file at a path. -/
def load (tree : FileTree) (path : String) : Except LoadError Program := ofFile path (tree.read path)

/-- What loading one file of a directory gave: the program with its path, or a fault. -/
abbrev Loaded := Except LoadError (String × Program)

def loadAt (tree : FileTree) (path : String) : Loaded := (load tree path).map fun program => (path, program)

def isProgramPath (path : String) : Bool :=
  Path.extension? path = some "json" || Path.extension? path = some "tm"

/-- Loads the entry of that name, unless it is a directory itself or no program by its name. -/
def loadNamed? (tree : FileTree) (directory name : String) : Option Loaded :=
  let path := Path.join directory name
  if tree.hasDirectory path || !isProgramPath path then none else some (loadAt tree path)

/-- Programs come before faults and go by their paths. -/
def Loaded.compare : Loaded → Loaded → Ordering
  | .ok first, .ok second => Path.compare first.1 second.1
  | .ok _, .error _ => .lt
  | .error _, .ok _ => .gt
  | .error _, .error _ => .eq

/-- Loads all programs of a directory, given the names of its entries in any order. Faults keep the
order in which they arose. -/
def loadEntries (tree : FileTree) (directory : String) (names : List String) : List Loaded :=
  (names.filterMap (loadNamed? tree directory)).mergeSort fun first second => (Loaded.compare first second).isLE

def loadDirectory (tree : FileTree) (directory : String) : List Loaded :=
  match tree.resolve directory with
  | .error _ => [.error (.noDirectory directory)]
  | .ok (.file _) => [.error (.unreadableDirectory directory .notDirectory)]
  | .ok (.directory entries) => loadEntries tree directory (entries.map Prod.fst)

end TapeMachine.Program
