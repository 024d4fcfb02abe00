/-
Paths of files.

A path is a root and the names on the way.  Empty names and single dots say nothing and are left
out, so a path has one written form; two dots are kept, since they depend on the files.
-/
namespace MatrixStack

structure Path where
  root : String
  names : List String
  deriving DecidableEq

namespace Path

/-- Exactly two slashes in front are a root of their own; any other number is one slash. -/
def rootOf (cs : List Char) : String :=
  match (cs.takeWhile (· = '/')).length with
  | 0 => ""
  | 2 => "//"
  | _ => "/"

def ofString (s : String) : Path :=
  let names := (s.toList.splitOn '/').filter fun name => name ≠ [] ∧ name ≠ ['.']
  ⟨rootOf s.toList, names.map String.ofList⟩

def text (p : Path) : String :=
  if p.root.isEmpty && p.names.isEmpty then "." else p.root ++ "/".intercalate p.names

end Path
end MatrixStack
