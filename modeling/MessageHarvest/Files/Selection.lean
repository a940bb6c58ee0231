import MessageHarvest.Files.Path
import MessageHarvest.Text.LowerCase

/-!
# Selections of files

A selection says which files are wanted, by their suffixes, and which directories are not entered,
by their names. Suffixes are compared in lower case, names as they are.
-/

namespace MessageHarvest

/-- The suffixes of the files that are wanted, and the names of the directories that are not
entered. -/
structure Selection where
  extensions : List String
  excluded : List String
  deriving DecidableEq, Repr

namespace Selection

/-- The suffixes of source files. -/
def standardExtensions : List String :=
  [".ts", ".tsx", ".js", ".jsx"]

/-- The names of directories that hold no sources of one's own. -/
def standardExcluded : List String :=
  [".git", "node_modules", "build", "dist", "coverage", ".next", ".idea", ".vscode"]

/-- Source files, but none from the directories that hold others. -/
def standard : Selection :=
  ⟨standardExtensions, standardExcluded⟩

/-- A file of this name is wanted. -/
def wants (s : Selection) (name : String) : Bool :=
  (s.extensions.map LowerCase.lower).contains (LowerCase.lower (Path.suffix name))

/-- A directory of this name is entered. Names that begin with a dot never are. -/
def enters (s : Selection) (name : String) : Bool :=
  !s.excluded.contains name && name.toList.head? != some '.'

end Selection

end MessageHarvest
