import MessageHarvest.Files.Entry
import MessageHarvest.Files.Selection

/-!
# Walking through directories

From a directory all wanted files below it are listed, with their paths in order. Links to
directories are not followed; other links count as files, also those that lead nowhere. A path
that leads to a file lists just that, if it is wanted.

Every directory that is come to is listed as a whole: there are no permissions that forbid it, and
no limits to the length of a path or to how deep directories may lie in each other.
-/

namespace MessageHarvest.FileSystem

mutual

/-- The wanted files that an entry contributes which has this path and name. -/
def collectFrom (fs : FileSystem) (s : Selection) (path name : String) : Entry → List String
  | .file _ => if s.wants name then [path] else []
  | .link _ => if s.wants name && !fs.isDirectory path then [path] else []
  | .directory entries => if s.enters name then fs.collect s path entries else []
termination_by structural e => e

/-- The wanted files among the entries of the directory at `path`, and below. -/
def collect (fs : FileSystem) (s : Selection) (path : String) :
    List (String × Entry) → List String
  | [] => []
  | (name, e) :: rest =>
    fs.collectFrom s (Path.join path name) name e ++ fs.collect s path rest
termination_by structural entries => entries

end

/-- Paths in the order of their characters. -/
def inOrder (paths : List String) : List String :=
  paths.mergeSort fun p q => decide (p ≤ q)

/-- The wanted files to which a path leads. -/
def walk (fs : FileSystem) (s : Selection) (path : String) : Except Error (List String) :=
  match fs.resolve path with
  | .ok (.file _) => .ok (if s.wants (Path.lastName path) then [path] else [])
  | .ok (.directory entries) => .ok (inOrder (fs.collect s path entries))
  | .ok (.link _) => .ok []
  | .error .zeroCharacter => .error .zeroCharacter
  | .error _ => .ok []

end MessageHarvest.FileSystem
