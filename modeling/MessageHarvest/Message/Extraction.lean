import MessageHarvest.Message.Pattern

/-!
# Extraction

All messages of a program: those of the tags, tag name by tag name, then those of the bulk calls,
then those of the single calls. A message that is written twice, or whose tag name is given
twice, is found twice.
-/

namespace MessageHarvest

/-- The tag that is always looked for. -/
def standardTag : String := "FormattedMessage"

/-- The callee of a call that declares a map of messages. -/
def bulkCallee : String := "defineMessages"

/-- The callee of a call that declares one message. -/
def singleCallee : String := "formatMessage"

/-- What is looked for: the names of tags beside the standard one, in the order of the search. -/
structure Options where
  additionalTags : List String
  deriving DecidableEq, Repr

namespace Options

/-- Only the standard tag is looked for. -/
def standard : Options := ⟨[]⟩

/-- The names of the tags that are looked for. -/
def tagNames (o : Options) : List String :=
  standardTag :: o.additionalTags

end Options

/-- The messages of a tree. -/
def Node.extract (src : Source) (o : Options) (root : Node) : Except Escape.Error (List Message) :=
  do
    let tags ← gather (fun name => root.tagMessages src name) o.tagNames
    let bulk ← root.bulkMessages src bulkCallee
    let single ← root.singleMessages src singleCallee
    return tags ++ bulk ++ single

/-- The messages of a document. -/
def Document.extract (d : Document) (o : Options) : Except Escape.Error (List Message) :=
  match d.root with
  | none => .ok []
  | some root => root.extract d.source o

end MessageHarvest
