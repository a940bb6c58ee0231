import MessageHarvest.Text.Split

/-!
# Paths

A path is a text in which slashes part the names. Its suffix is what follows the last dot of its
last name, dot included; a dot at either end of a name begins no suffix.
-/

namespace MessageHarvest.Path

/-! ## Names -/

/-- The names between the slashes of a path, the empty ones included. -/
def names (p : String) : List (List Char) :=
  Text.split '/' p.toList

/-- The steps that a path asks for: its names, and a stay where it ends in a slash. -/
def steps (p : String) : List String :=
  let proper := (names p).filter fun name => !name.isEmpty
  (proper ++ if p.toList.getLast? = some '/' then [['.']] else []).map String.ofList

/-- A path that begins at the root. -/
def isAbsolute (p : String) : Bool :=
  p.toList.head? == some '/'

/-- The place where a path begins that is read at a given place. -/
def start (place : List String) (p : String) : List String :=
  if isAbsolute p then [] else place

/-- The path of a name in a directory. -/
def join (directory name : String) : String :=
  if directory.isEmpty || directory.toList.getLast? == some '/' then directory ++ name
  else directory ++ "/" ++ name

/-- What stands after the last slash of a path. -/
def lastName (p : String) : String :=
  String.ofList ((names p).getLastD [])

/-- The path of the directory that holds what a path leads to, empty if there is only a name. -/
def directory (p : String) : String :=
  String.ofList (['/'].intercalate (names p).dropLast)

/-- A path without empty names, and without stays but for one that stands alone. -/
def normal (p : String) : String :=
  let proper := (names p).filter fun name => !name.isEmpty && name != ['.']
  let text := String.ofList (['/'].intercalate proper)
  if isAbsolute p then "/" ++ text else if proper.isEmpty then "." else text

/-! ## Suffixes -/

/-- The text from the last dot on, if there is a dot. -/
def fromLastDot? : List Char → Option (List Char)
  | [] => none
  | c :: rest =>
    match fromLastDot? rest with
    | some s => some s
    | none => if c = '.' then some (c :: rest) else none

/-- The suffix of a name, empty if there is none. -/
def suffix (name : String) : String :=
  match name.toList with
  | [] => ""
  | _ :: rest =>
    match fromLastDot? rest with
    | some ('.' :: c :: s) => String.ofList ('.' :: c :: s)
    | _ => ""

end MessageHarvest.Path
