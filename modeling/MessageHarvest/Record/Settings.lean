import MessageHarvest.Files.Selection
import MessageHarvest.Message.Extraction
import MessageHarvest.Record.Shape

/-!
# Settings as records

The settings say what is looked for and in which files. Whatever they leave out keeps its
standard.
-/

namespace MessageHarvest

open Record

/-- What is looked for, and in which files. -/
structure Settings where
  options : Options
  selection : Selection
  deriving DecidableEq, Repr

/-- The options that a value describes. -/
def Options.ofJson : Json → Checked Options :=
  record .options fun members =>
    (optional ⟨"additionalTagNames", some "additional_tag_names"⟩ [] (list text) members).map
      Options.mk

namespace Settings

/-- The settings if nothing is said. -/
def standard : Settings :=
  ⟨.standard, .standard⟩

/-- The settings that a value describes. -/
def ofJson : Json → Checked Settings :=
  record .settings fun members =>
    (Checked.both (optional (.only "extractor") .standard Options.ofJson members) <|
      Checked.both (optional (.only "extensions") Selection.standardExtensions (list text) members)
        (optional (.only "exclude_patterns") Selection.standardExcluded (list text) members)).map
      fun (options, extensions, excluded) => ⟨options, ⟨extensions, excluded⟩⟩

end Settings

end MessageHarvest
