namespace TapeMachine.Path

/-- The names between the slashes of a path. A path is a text, so names that are other bytes are left
out. -/
def names (path : String) : List String := (path.toList.splitOn '/').map String.ofList

/-- The names of a path that lead somewhere. -/
def steps (path : String) : List String := (names path).filter fun name => name ≠ "" ∧ name ≠ "."

/-- The last name of a path. Nothing is named by a path that goes up at its end. -/
def fileName? (path : String) : Option String := (steps path).getLast?.filter (· ≠ "..")

/-- The parts of a name before and after its last dot. A name without a dot has no second part, nor
has one whose only dot comes first. -/
def splitName (name : String) : String × Option String :=
  let backwards := name.toList.reverse
  let suffix := (backwards.takeWhile (· ≠ '.')).reverse
  match (backwards.dropWhile (· ≠ '.')).drop 1 with
  | [] => (name, none)
  | stem => (String.ofList stem.reverse, some (String.ofList suffix))

def stem (path : String) : String := ((fileName? path).map fun name => (splitName name).1).getD ""

def extension? (path : String) : Option String :=
  (fileName? path).bind fun name => (splitName name).2

/-- The path of an entry of a directory. -/
def join (directory name : String) : String :=
  if directory.toList.getLast? = some '/' then directory ++ name else directory ++ "/" ++ name

/-- A part of a path, as paths are compared. -/
inductive Component where
  | root
  | here
  | up
  | name (name : String)
deriving DecidableEq, Ord

/-- Where a path with these names begins, if it says so. -/
def start : List String → List Component
  | [] => []
  | first :: rest =>
    if first = "" ∧ rest ≠ [] then [.root]
    else if first = "." then [.here]
    else []

/-- The components of a path. A dot counts at its beginning alone. -/
def components (path : String) : List Component :=
  start (names path) ++ (steps path).map fun name => if name = ".." then .up else .name name

/-- Paths go by their components. -/
def compare (first second : String) : Ordering := Ord.compare (components first) (components second)

end TapeMachine.Path
