import Mathlib

/-!
# Path components

A path of a POSIX system as its components, the test whether one path starts with
another, and lexical normalisation: `..` takes away the component before it. What
follows a prefix is a climb: a number of levels to go up from the prefix and the
names to go down from there.
-/

namespace Filesystem

inductive Component where
  | rootDir
  | curDir
  | parentDir
  | normal (name : String)
  deriving DecidableEq

/-- The component between two separators. Empty ones and `.` stand for nothing. -/
def ofPart : List Char → Option Component
  | [] => none
  | ['.'] => none
  | ['.', '.'] => some .parentDir
  | name => some (.normal (String.ofList name))

/-- The components of a path. A `.` counts only at the start of a relative path. -/
def components (path : String) : List Component :=
  match path.toList.splitOn '/' with
  | [] => []
  | first :: rest =>
      if first = [] then
        if rest = [] then [] else .rootDir :: rest.filterMap ofPart
      else if first = ['.'] then
        .curDir :: rest.filterMap ofPart
      else
        (first :: rest).filterMap ofPart

/-- Whether the components of `base` begin those of `path`. -/
def startsWith (path base : String) : Bool :=
  (components base).isPrefixOf (components path)

/-- The way from a directory: `ups` levels up and then down along `names`. -/
structure Climb where
  ups : ℕ
  names : List String
  deriving DecidableEq

namespace Climb

def step (c : Climb) : Component → Climb
  | .normal name => { c with names := c.names ++ [name] }
  | .parentDir =>
      if c.names = [] then { c with ups := c.ups + 1 } else { c with names := c.names.dropLast }
  | _ => c

/-- Where the climb leads from the directory along `names`; the root is its own
parent. -/
def target (c : Climb) (names : List String) : List String :=
  names.take (names.length - c.ups) ++ c.names

end Climb

/-- The names of an absolute path after one more component. -/
def follow (names : List String) : Component → List String
  | .normal name => names ++ [name]
  | .parentDir => names.dropLast
  | _ => names

end Filesystem
