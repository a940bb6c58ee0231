import MessageHarvest.Files.Path

/-!
# File systems

A file system is a tree of directories, files and links, with one directory as the place where
relative paths begin. A path is followed step by step; a link on the way is replaced by the path
that it holds.

Names and paths are Unicode texts: those that consist of other bytes are left out. So are entries of
other kinds, such as devices, and the permissions of directories: each of them may be listed and
passed through. Of a file it is only said whether it may be read. Nothing changes during a run.
-/

namespace MessageHarvest

/-- What a name in a directory stands for. A file has no content here if it may not be read; whose
permission is missing does not matter. Directories have no permissions, they are open to all. -/
inductive Entry where
  | file (content : Option ByteArray)
  | directory (entries : List (String × Entry))
  | link (target : String)

/-- The entries of the root directory, and the names that lead to the current directory. There is no
limit to how deep directories lie in each other; limits to names and paths are those of the look-up
(`nameLimit`, `pathLimit`), not of the tree. -/
structure FileSystem where
  entries : List (String × Entry)
  here : List String

namespace Entry

/-- The entry that a name stands for. -/
def lookup (name : String) (entries : List (String × Entry)) : Option Entry :=
  (entries.find? (·.1 = name)).map (·.2)

/-- The entry to which names lead from an entry; links are not followed. -/
def descend : Entry → List String → Option Entry
  | e, [] => some e
  | .directory entries, name :: rest =>
    match lookup name entries with
    | some e => e.descend rest
    | none => none
  | _, _ :: _ => none

/-- An entry that holds others. -/
def isDirectory : Entry → Bool
  | directory _ => true
  | _ => false

/-- An entry that holds bytes. -/
def isFile : Entry → Bool
  | file _ => true
  | _ => false

end Entry

namespace FileSystem

/-- Why a path leads nowhere, or not to what is needed there. -/
inductive Error where
  | notFound
  | notDirectory
  | isDirectory
  | alreadyThere
  | tooManyLinks
  | nameTooLong
  | zeroCharacter
  | denied
  deriving DecidableEq, Repr

/-- No more links than this are followed on one path. -/
def linkLimit : Nat := 40

/-- No name has more bytes. -/
def nameLimit : Nat := 255

/-- A path has fewer bytes. -/
def pathLimit : Nat := 4096

/-- The entry at a place, given by the names from the root. -/
def entryAt? (fs : FileSystem) (place : List String) : Option Entry :=
  (Entry.directory fs.entries).descend place

/-- How far steps lead before a link has to be followed. -/
inductive Progress where
  | arrived (place : List String)
  | failed (e : Error)
  | atLink (place : List String) (target : String) (rest : List String)

/-- Takes steps from a place, up to the first link. Only the last step may lead to where nothing
is. -/
def advance (fs : FileSystem) (place : List String) : List String → Progress
  | [] => .arrived place
  | name :: rest =>
    match fs.entryAt? place with
    | none => .failed .notFound
    | some (.directory entries) =>
      if name = "." then fs.advance place rest
      else if name = ".." then fs.advance place.dropLast rest
      else if name.utf8ByteSize > nameLimit then .failed .nameTooLong
      else
        match Entry.lookup name entries with
        | none => if rest.isEmpty then .arrived (place ++ [name]) else .failed .notFound
        | some (.link target) => .atLink place target rest
        | some _ => fs.advance (place ++ [name]) rest
    | some _ => .failed .notDirectory

/-- The place to which steps lead from a place. The steps of a link come before those that are
left; so many links are followed at most. -/
def follow (fs : FileSystem) (links : Nat) (place : List String) (todo : List String) :
    Except Error (List String) :=
  match fs.advance place todo with
  | .arrived place => .ok place
  | .failed e => .error e
  | .atLink place target rest =>
    match links with
    | 0 => .error .tooManyLinks
    | links + 1 => fs.follow links (Path.start place target) (Path.steps target ++ rest)

/-- A path that may be followed at all. -/
def permit (p : String) : Except Error Unit :=
  if p.toList.contains '\x00' then .error .zeroCharacter
  else if p.isEmpty then .error .notFound
  else if p.utf8ByteSize ≥ pathLimit then .error .nameTooLong
  else .ok ()

/-- The place to which a path leads; perhaps nothing is there. -/
def place (fs : FileSystem) (p : String) : Except Error (List String) := do
  permit p
  fs.follow linkLimit (Path.start fs.here p) (Path.steps p)

/-- The entry to which a path leads. -/
def resolve (fs : FileSystem) (p : String) : Except Error Entry := do
  match fs.entryAt? (← fs.place p) with
  | some e => return e
  | none => throw .notFound

/-- The path leads to something. -/
def hasEntry (fs : FileSystem) (p : String) : Bool :=
  match fs.resolve p with
  | .ok _ => true
  | .error _ => false

/-- The path leads to a file. -/
def isFile (fs : FileSystem) (p : String) : Bool :=
  match fs.resolve p with
  | .ok e => e.isFile
  | .error _ => false

/-- The path leads to a directory. -/
def isDirectory (fs : FileSystem) (p : String) : Bool :=
  match fs.resolve p with
  | .ok e => e.isDirectory
  | .error _ => false

/-- The bytes of the file to which a path leads. -/
def read (fs : FileSystem) (p : String) : Except Error ByteArray := do
  match ← fs.resolve p with
  | .file (some content) => return content
  | .file none => throw .denied
  | _ => throw .isDirectory

end FileSystem

end MessageHarvest
