/-
A tree of files below a working directory.

A path is followed name by name.  What is met on the way must be a directory, and what is met at
the end must be a file if it is to be read.  A path may leave the tree: outside there are only the
directories above the working directory, and no name leads anywhere from them.
-/
import MatrixStack.Files.Path
import MatrixStack.Text.Quoted

namespace MatrixStack

/-- Why a file cannot be read. -/
inductive FileError where
  | notFound (path : Path)
  | notDirectory (path : Path)
  | isDirectory (path : Path)
  | nameTooLong (path : Path)
  | nullByte
  deriving DecidableEq

namespace FileError

def numbered (number : Nat) (what : String) (path : Path) : String :=
  "[Errno " ++ number.repr ++ "] " ++ what ++ ": " ++ Text.quote path.text

def message : FileError → String
  | notFound path => numbered 2 "No such file or directory" path
  | notDirectory path => numbered 20 "Not a directory" path
  | isDirectory path => numbered 21 "Is a directory" path
  | nameTooLong path => numbered 36 "File name too long" path
  | nullByte => "embedded null byte"

end FileError

inductive FileNode where
  | file (bytes : List UInt8)
  | directory
  deriving DecidableEq

/-- The nodes of the tree by the names that lead to them; the directories on the way to a node
need no entry of their own. -/
structure FileTree where
  entries : List (List String × FileNode)

/-- A directory on a path: one of the tree, by the names that lead to it, or one outside. -/
inductive Place where
  | inside (names : List String)
  | outside
  deriving DecidableEq

/-- The directory above.  Outside there always is one, since the topmost is above itself. -/
def Place.parent : Place → Place
  | .inside (name :: names) => .inside (name :: names).dropLast
  | .inside [] | .outside => .outside

namespace FileTree

/-- The greatest number of bytes in a name. -/
def nameLimit : Nat := 255

/-- The number of bytes that a whole path stays below. -/
def pathLimit : Nat := 4096

def ofList (files : List (String × FileNode)) : FileTree :=
  ⟨files.map fun (name, node) => ((Path.ofString name).names, node)⟩

def node? (tree : FileTree) (names : List String) : Option FileNode :=
  match tree.entries.find? fun entry => entry.1 = names with
  | some entry => some entry.2
  | none =>
    if names.isEmpty || tree.entries.any fun entry => names.isPrefixOf entry.1 then
      some .directory
    else none

/-- Follow names from a directory. -/
def follow (tree : FileTree) (path : Path) (here : Place) :
    List String → Except FileError FileNode
  | [] => .ok .directory
  | name :: rest =>
    if nameLimit < name.utf8ByteSize then .error (.nameTooLong path)
    else if name = ".." then follow tree path here.parent rest
    else
      match here with
      | .outside => .error (.notFound path)
      | .inside names =>
        match tree.node? (names ++ [name]) with
        | none => .error (.notFound path)
        | some .directory => follow tree path (.inside (names ++ [name])) rest
        | some (.file bytes) =>
          if rest.isEmpty then .ok (.file bytes) else .error (.notDirectory path)

/-- What a path leads to; one with a root starts at the topmost directory. -/
def lookup (tree : FileTree) (path : Path) : Except FileError FileNode :=
  if path.text.toList.contains (Char.ofNat 0) then .error .nullByte
  else if pathLimit ≤ path.text.utf8ByteSize then .error (.nameTooLong path)
  else tree.follow path (if path.root.isEmpty then .inside [] else .outside) path.names

/-- The bytes of a file. -/
def read (tree : FileTree) (path : Path) : Except FileError (List UInt8) :=
  match tree.lookup path with
  | .error e => .error e
  | .ok .directory => .error (.isDirectory path)
  | .ok (.file bytes) => .ok bytes

end FileTree
end MatrixStack
