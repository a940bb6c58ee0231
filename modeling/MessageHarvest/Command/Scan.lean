import MessageHarvest.Command.Arguments
import MessageHarvest.Files.Walk
import MessageHarvest.Markup.Render
import MessageHarvest.Message.Extractor
import MessageHarvest.Record.Message
import MessageHarvest.Record.Settings

/-!
# Scanning files

A scan reads its settings, finds the files below the given paths, and takes the messages out of
them. The settings come first, then the paths one after the other, then the files; what fails
first ends the scan. The parser of the files is a parameter.
-/

namespace MessageHarvest

/-- The bytes of a file, none if it cannot be read. A path with a zero character is no path. -/
def FileSystem.readSource? (fs : FileSystem) (path : String) :
    Except FileSystem.Error (Option Source) :=
  match fs.read path with
  | .ok source => .ok (some source)
  | .error .zeroCharacter => .error .zeroCharacter
  | .error _ => .ok none

namespace Command

/-- Why a scan ends before its result is there. -/
inductive Failure where
  /-- The file with the settings is not there. -/
  | noSettings (path : String)
  /-- The file with the settings cannot be read. -/
  | unreadableSettings (e : FileSystem.Error)
  /-- The file with the settings holds no text. -/
  | settingsNoText
  /-- The settings have faults. -/
  | badSettings (r : Record.Refusal)
  /-- A path leads nowhere. -/
  | noPath (path : String)
  /-- A path cannot be scanned. -/
  | unusablePath (e : FileSystem.Error)
  /-- A literal stands for no text. -/
  | undecodable (e : Escape.Error)
  /-- The result cannot be shown. -/
  | markup (e : Markup.Error)
  deriving DecidableEq, Repr

/-! ## Settings -/

/-- The file whose settings are used if no other is named. -/
def standardSettings : String := "intl_extract_config.json"

/-- The settings in a file that is there. -/
def readSettings (fs : FileSystem) (path : String) : Except Failure Settings := do
  let content ← (fs.read path).mapError .unreadableSettings
  match String.fromUTF8? content with
  | none => throw .settingsNoText
  | some text => (Record.read Settings.ofJson text).mapError .badSettings

/-- Whether a path of settings leads to something. That its name is too long is another matter
than that nothing is there. -/
def hasSettings (fs : FileSystem) (path : String) : Except Failure Bool :=
  match fs.resolve path with
  | .ok _ => .ok true
  | .error .nameTooLong => .error (.unreadableSettings .nameTooLong)
  | .error _ => .ok false

/-- The settings of a scan: those in the file that is named, else those in the standard file if it
is there, else the standard ones. -/
def settings (fs : FileSystem) (config : Option String) : Except Failure Settings := do
  match config.filter (· ≠ "") with
  | some named =>
    let path := Path.normal named
    if ← hasSettings fs path then readSettings fs path else throw (.noSettings named)
  | none =>
    if ← hasSettings fs standardSettings then readSettings fs standardSettings
    else return .standard

/-! ## Paths and files -/

/-- The files below the paths, path by path. -/
def filesBelow (fs : FileSystem) (s : Selection) : List String → Except Failure (List String)
  | [] => .ok []
  | path :: rest => do
    if fs.hasEntry path then
      let found ← (fs.walk s path).mapError .unusablePath
      return found ++ (← filesBelow fs s rest)
    else throw (.noPath path)

/-- The messages of a file, none if it cannot be read. -/
def extractFile (x : Extractor) (fs : FileSystem) (path : String) :
    Except Failure (Option FileReport) := do
  match ← (fs.readSource? path).mapError .unusablePath with
  | none => return none
  | some source => return some ⟨path, ← (x.extractSource source).mapError .undecodable⟩

/-- The messages of the files that can be read and have any. -/
def reportsOf (x : Extractor) (fs : FileSystem) : List String → Except Failure (List FileReport)
  | [] => .ok []
  | path :: rest => do
    let found ← extractFile x fs path
    let reports ← reportsOf x fs rest
    return (found.filter FileReport.hasMessages).toList ++ reports

/-! ## The two scans -/

/-- The files that a scan finds. -/
def Scan.files (scan : Scan) (fs : FileSystem) : Except Failure (List String) := do
  let settings ← settings fs scan.config
  filesBelow fs settings.selection scan.paths

/-- The messages that a scan finds. The tags of the settings come before those of the command. -/
def Scan.reports (scan : Scan) (parse : Source → Node) (fs : FileSystem) (tagNames : List String) :
    Except Failure (List FileReport) := do
  let settings ← settings fs scan.config
  let files ← filesBelow fs settings.selection scan.paths
  reportsOf ⟨parse, ⟨settings.options.additionalTags ++ tagNames⟩⟩ fs files

end Command

end MessageHarvest
