import MessageHarvest.Message.Extraction

/-!
# Extractors

An extractor is a parser together with what is looked for in the trees that it makes. Nothing is
assumed of the parser. A program may be given as a text, as bytes, or as a document, of which the
tree is taken as it is; whatever else is given is refused.

* `SourceUnit`: what may be given to an extractor.
* `Extractor.extract`: the messages of what is given.
* `Extractor.extract_eq_wrongType_iff`: what is refused, and with which error.
-/

namespace MessageHarvest

/-- What may be given to an extractor. -/
inductive SourceUnit where
  | text (t : String)
  | bytes (source : Source)
  | tree (document : Document)
  /-- A value of a type whose values are no programs. -/
  | other (typeName : String)

/-- A parser, and what is looked for in the trees that it makes. -/
structure Extractor where
  parse : Source → Node
  options : Options

namespace Extractor

/-- Why there are no messages to return. -/
inductive Error where
  /-- What was given is no program. -/
  | wrongType (typeName : String)
  /-- A literal stands for no text. -/
  | undecodable (e : Escape.Error)
  deriving DecidableEq, Repr

/-- What is said of an error, where the wording is fixed. -/
def Error.message? : Error → Option String
  | .wrongType typeName => some ("expected str, bytes or tree_sitter.Tree, got " ++ typeName)
  | .undecodable e => e.message?

/-- The messages in the bytes of a program. -/
def extractSource (x : Extractor) (source : Source) : Except Escape.Error (List Message) :=
  Document.extract ⟨source, some (x.parse source)⟩ x.options

/-- The messages of what is given. -/
def extract (x : Extractor) : SourceUnit → Except Error (List Message)
  | .text t => (x.extractSource t.toUTF8).mapError .undecodable
  | .bytes source => (x.extractSource source).mapError .undecodable
  | .tree document => (document.extract x.options).mapError .undecodable
  | .other typeName => .error (.wrongType typeName)

variable {x : Extractor}

/-- A text is read as its bytes. -/
theorem extract_text (t : String) : x.extract (.text t) = x.extract (.bytes t.toUTF8) :=
  rfl

/-- Bytes are read as the document that the parser makes of them. -/
theorem extract_bytes (source : Source) :
    x.extract (.bytes source) = x.extract (.tree ⟨source, some (x.parse source)⟩) :=
  rfl

/-- Only a value of another type is refused for its type, and the error names that type. -/
theorem extract_eq_wrongType_iff {unit : SourceUnit} {typeName : String} :
    x.extract unit = .error (.wrongType typeName) ↔ unit = .other typeName := by
  have hdecoded : ∀ found : Except Escape.Error (List Message),
      found.mapError Error.undecodable ≠ .error (.wrongType typeName) := by
    intro found h
    cases found with
    | error e => cases h
    | ok messages => cases h
  cases unit with
  | other t => simp [extract]
  | text t => exact iff_of_false (hdecoded _) SourceUnit.noConfusion
  | bytes source => exact iff_of_false (hdecoded _) SourceUnit.noConfusion
  | tree document => exact iff_of_false (hdecoded _) SourceUnit.noConfusion

end Extractor

end MessageHarvest
