/-!
# Arguments

The arguments name a command, the paths that it is to scan, and options. Options of the program
stand before the command, those of a command anywhere after it, up to a double dash. Short options
may stand together behind one dash; a value follows at once or as the next argument.
-/

namespace MessageHarvest.Command

/-- What both commands take. -/
structure Scan where
  paths : List String
  config : Option String
  humanize : Bool
  deriving DecidableEq, Repr

/-- What is asked for. -/
inductive Request where
  /-- The messages in the files below the paths. -/
  | extract (scan : Scan) (tagNames : List String)
  /-- The files below the paths. -/
  | files (scan : Scan)
  /-- How the program is used. -/
  | help
  deriving DecidableEq, Repr

/-! ## Options -/

/-- The options, whatever the command. -/
inductive Flag where
  | help
  | verbose
  | humanize
  | config
  | tagName
  deriving DecidableEq, Repr

namespace Flag

/-- An option that has a value. -/
def takesValue : Flag → Bool
  | config => true
  | tagName => true
  | _ => false

/-- The name of an option after two dashes. -/
def longName : Flag → String
  | help => "help"
  | verbose => "verbose"
  | humanize => "humanize"
  | config => "config"
  | tagName => "tag-name"

/-- The letter of an option after one dash. -/
def letter? : Flag → Option Char
  | help => none
  | verbose => some 'v'
  | humanize => some 'H'
  | config => some 'c'
  | tagName => some 't'

/-- The options before a command. -/
def ofProgram : List Flag := [help, verbose]

/-- The options of the command that extracts. -/
def ofExtract : List Flag := [help, humanize, config, tagName]

/-- The options of the command that lists files. -/
def ofFiles : List Flag := [help, humanize, config]

end Flag

/-- An option with its value, if it takes one. -/
abbrev Given := Flag × String

/-- The options that the letters behind one dash stand for, and the arguments that are left. The
first option that takes a value takes the other letters, or the next argument. -/
def readLetters (known : List Flag) : List Char → List String →
    Option (List Given × List String)
  | [], rest => some ([], rest)
  | c :: letters, rest => do
    let f ← known.find? fun f => f.letter? = some c
    if f.takesValue then
      if letters.isEmpty then
        match rest with
        | [] => none
        | value :: rest => some ([(f, value)], rest)
      else some ([(f, String.ofList letters)], rest)
    else
      let (given, rest) ← readLetters known letters rest
      some ((f, "") :: given, rest)

/-- The option that a name behind two dashes stands for, and the arguments that are left. A value
may stand in the same argument after an equals sign. -/
def readName (known : List Flag) (cs : List Char) (rest : List String) :
    Option (List Given × List String) := do
  let name := cs.takeWhile (· ≠ '=')
  let value := cs.drop name.length
  let f ← known.find? fun f => f.longName.toList = name
  match f.takesValue, value, rest with
  | true, _ :: value, rest => some ([(f, String.ofList value)], rest)
  | true, [], value :: rest => some ([(f, value)], rest)
  | true, [], [] => none
  | false, [], rest => some ([(f, "")], rest)
  | false, _ :: _, _ => none

/-- What an argument is. -/
inductive Shape where
  | positional
  /-- Two dashes: only positional arguments follow. -/
  | stop
  | name (cs : List Char)
  | letters (cs : List Char)

/-- The shape of an argument; a single dash is positional. -/
def shapeOf (arg : String) : Shape :=
  match arg.toList with
  | ['-', '-'] => .stop
  | '-' :: '-' :: cs => .name cs
  | '-' :: c :: cs => .letters (c :: cs)
  | _ => .positional

/-- The options that an argument of some shape stands for. -/
def readOption (known : List Flag) (shape : Shape) (rest : List String) :
    Option (List Given × List String) :=
  match shape with
  | .name cs => readName known cs rest
  | .letters cs => readLetters known cs rest
  | _ => none

/-- The options and the positional arguments of a command. Each round takes at least one argument,
so that `rounds` need not be more than there are arguments. -/
def readAll (known : List Flag) : Nat → List String → Option (List Given × List String)
  | _, [] => some ([], [])
  | 0, _ => none
  | rounds + 1, arg :: rest =>
    match shapeOf arg with
    | .stop => some ([], rest)
    | .positional => do
      let (given, positional) ← readAll known rounds rest
      some (given, arg :: positional)
    | shape => do
      let (first, rest) ← readOption known shape rest
      let (given, positional) ← readAll known rounds rest
      some (first ++ given, positional)

/-- The options before the command, and the arguments from the command on. -/
def readLeading (known : List Flag) : Nat → List String → Option (List Given × List String)
  | _, [] => some ([], [])
  | 0, _ => none
  | rounds + 1, arg :: rest =>
    match shapeOf arg with
    | .stop => some ([], rest)
    | .positional => some ([], arg :: rest)
    | shape => do
      let (first, rest) ← readOption known shape rest
      let (given, rest) ← readLeading known rounds rest
      some (first ++ given, rest)

/-! ## Requests -/

/-- An option was given. -/
def isGiven (f : Flag) (given : List Given) : Bool :=
  given.any (·.1 = f)

/-- The values of an option, in the order in which they were given. -/
def valuesOf (f : Flag) (given : List Given) : List String :=
  (given.filter (·.1 = f)).map (·.2)

/-- What options and paths ask of a command; at least one path is needed. -/
def request? (ask : Scan → List Given → Request) (given : List Given) (paths : List String) :
    Option Request :=
  if isGiven .help given then some .help
  else if paths.isEmpty then none
  else some (ask ⟨paths, (valuesOf .config given).getLast?, isGiven .humanize given⟩ given)

/-- What is asked for by the arguments of a command. -/
def readCommand (known : List Flag) (ask : Scan → List Given → Request) (args : List String) :
    Option Request := do
  let (given, paths) ← readAll known args.length args
  request? ask given paths

/-- What is asked for, if the arguments make sense. -/
def Request.read? (args : List String) : Option Request := do
  let (given, rest) ← readLeading Flag.ofProgram args.length args
  if isGiven .help given then some .help
  else
    match rest with
    | "extract" :: rest =>
      readCommand Flag.ofExtract (fun scan given => .extract scan (valuesOf .tagName given)) rest
    | "files" :: rest => readCommand Flag.ofFiles (fun scan _ => .files scan) rest
    | _ => none

end MessageHarvest.Command
