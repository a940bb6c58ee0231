import MessageHarvest.Files.Entry

/-!
# Changing a file system

Files are written, directories and links are made, and names are removed. Each change returns the
file system as it is afterwards.
-/

namespace MessageHarvest

namespace Entry

/-- Lets a name stand for an entry. -/
def assign (name : String) (e : Entry) : List (String × Entry) → List (String × Entry)
  | [] => [(name, e)]
  | (n, old) :: rest => if n = name then (n, e) :: rest else (n, old) :: assign name e rest

/-- Changes the entries of the directory at a place below. -/
def modify (f : List (String × Entry) → List (String × Entry)) :
    List String → List (String × Entry) → List (String × Entry)
  | [], entries => f entries
  | name :: rest, entries =>
    entries.map fun (n, e) =>
      match e with
      | .directory below => if n = name then (n, .directory (modify f rest below)) else (n, e)
      | e => (n, e)

end Entry

namespace FileSystem

/-- Puts an entry at a place whose directory is there. -/
def put (fs : FileSystem) (place : List String) (e : Entry) : FileSystem :=
  match place.getLast? with
  | none => fs
  | some name => { fs with entries := Entry.modify (Entry.assign name e) place.dropLast fs.entries }

/-- The place where the last name of a path stands; a link of that name is not followed. -/
def ownPlace (fs : FileSystem) (p : String) : Except Error (List String) := do
  permit p
  let directory := Path.directory p
  let place ← fs.place (if directory.isEmpty then (if Path.isAbsolute p then "/" else ".")
    else directory)
  return place ++ [Path.lastName p]

/-- Writes a file. -/
def write (fs : FileSystem) (p : String) (content : ByteArray) : Except Error FileSystem := do
  let place ← fs.place p
  match fs.entryAt? place with
  | some (.directory _) => throw .isDirectory
  | _ => return fs.put place (.file (some content))

/-- Makes one directory, unless the path leads to one. -/
def makeDirectory (fs : FileSystem) (p : String) : Except Error FileSystem := do
  if fs.isDirectory p then return fs
  let place ← fs.ownPlace p
  match fs.entryAt? place with
  | none => return fs.put place (.directory [])
  | some _ => throw .alreadyThere

/-- Makes a directory, and those on the way to it. -/
def makeDirectories (fs : FileSystem) (p : String) : Except Error FileSystem := do
  permit p
  let names := Path.steps p
  let paths := (List.range names.length).map fun i => "/".intercalate (names.take (i + 1))
  paths.foldlM (fun fs q => fs.makeDirectory (if Path.isAbsolute p then "/" ++ q else q)) fs

/-- Makes a link. -/
def makeLink (fs : FileSystem) (p target : String) : Except Error FileSystem := do
  let place ← fs.ownPlace p
  match fs.entryAt? place with
  | none => return fs.put place (.link target)
  | some _ => throw .alreadyThere

/-- Removes a file or a link. -/
def remove (fs : FileSystem) (p : String) : Except Error FileSystem := do
  let place ← fs.ownPlace p
  match fs.entryAt? place with
  | none => throw .notFound
  | some (.directory _) => throw .isDirectory
  | some _ =>
    return { fs with
      entries := Entry.modify (fun es => es.filter (·.1 != Path.lastName p)) place.dropLast
        fs.entries }

end FileSystem

end MessageHarvest
