import TapeMachine.File.Fault
import TapeMachine.File.Path

namespace TapeMachine

/-- A directory held in memory, or a file in one. The entries of a directory have different
names. A name is a text: entries whose names are other bytes are left out. -/
inductive FileTree where
  | file (bytes : ByteArray)
  | directory (entries : List (String × FileTree))

namespace FileTree

def empty : FileTree := directory []

def isDirectory : FileTree → Bool
  | file _ => false
  | directory _ => true

def entries : FileTree → List (String × FileTree)
  | file _ => []
  | directory entries => entries

def child? (tree : FileTree) (name : String) : Option FileTree := tree.entries.lookup name

/-- Puts an entry in the place of one of the same name, or after all others. -/
def setChild (name : String) (child : FileTree) :
    List (String × FileTree) → List (String × FileTree)
  | [] => [(name, child)]
  | (first, tree) :: rest =>
    if first = name then (name, child) :: rest else (first, tree) :: setChild name child rest

/-- Changes what stands at the end of a chain of names, or an empty directory if nothing does.
Directories on the way come into being. -/
def update (change : FileTree → FileTree) : List String → FileTree → FileTree
  | [], tree => change tree
  | name :: names, tree =>
    let child := update change names ((tree.child? name).getD empty)
    directory (setChild name child tree.entries)

def updatePath (change : FileTree → FileTree) (path : String) (tree : FileTree) : FileTree :=
  update change (Path.steps path) tree

/-- Makes a directory, unless it is there already. -/
def makeDirectory (tree : FileTree) (path : String) : FileTree := updatePath id path tree

/-- Writes a file, in the place of what was there. -/
def writeFile (tree : FileTree) (path : String) (bytes : ByteArray) : FileTree :=
  updatePath (fun _ => file bytes) path tree

def maxNameBytes : Nat := 255

def maxPathBytes : Nat := 4095

/-- Goes down the names of a path. `above` holds the directories that led to `here`. The root is
above itself. -/
def walk (above : List FileTree) (here : FileTree) : List String → Except ReadFault FileTree
  | [] => .ok here
  | name :: names =>
    if !here.isDirectory then .error .notDirectory
    else if name = "" ∨ name = "." then walk above here names
    else if name = ".." then
      match above with
      | [] => walk [] here names
      | parent :: above => walk above parent names
    else if maxNameBytes < name.utf8ByteSize then .error .nameTooLong
    else match here.child? name with
      | none => .error .missing
      | some child => walk (here :: above) child names

def resolve (tree : FileTree) (path : String) : Except ReadFault FileTree :=
  if '\x00' ∈ path.toList then .error .nulInName
  else if path = "" then .error .missing
  else if maxPathBytes < path.utf8ByteSize then .error .nameTooLong
  else walk [] tree (Path.names path)

/-- Whether a path leads to a directory. -/
def hasDirectory (tree : FileTree) (path : String) : Bool :=
  match tree.resolve path with
  | .ok found => found.isDirectory
  | .error _ => false

/-- The content of a file, as a file system would give it. -/
def content : FileTree → Content
  | file bytes => .ok bytes
  | directory _ => .error .isDirectory

def read (tree : FileTree) (path : String) : Content := do
  (← tree.resolve path).content

end FileTree

end TapeMachine
