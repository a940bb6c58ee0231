import MessageHarvest.Message.Reading
import MessageHarvest.Syntax.Search

/-!
# The patterns in which messages are written

A message is written as a JSX tag with attributes, as an entry of the map that a bulk call
declares, or as the object that a single call is given. Calls count only as the initializer of a
variable, and of their first argument each outermost object literal is a candidate.
-/

namespace MessageHarvest

/-- The results of `f` on the members of a list, one after the other. The first failure ends it. -/
def gather {α β : Type} (f : α → Except Escape.Error (List β)) :
    List α → Except Escape.Error (List β)
  | [] => .ok []
  | a :: rest => do
    let found ← f a
    return found ++ (← gather f rest)

namespace Node

/-! ## What an object literal holds -/

/-- The messages of a map: one for each entry whose value is a complete object literal. -/
def mapMessages (src : Source) (object : Node) : Except Escape.Error (List Message) :=
  gather (fun entry => return (← entry.readObject src true).message?.toList) object.nestedObjects

/-- The message that an object literal itself is. -/
def singleMessage (src : Source) (object : Node) : Except Escape.Error (List Message) :=
  return (← object.readObject src false).message?.toList

/-! ## Calls that initialize a variable -/

/-- The call of `callee` that initializes the variable of a declarator. -/
def initializingCall? (src : Source) (callee : String) (declarator : Node) : Option Node := do
  let value ← declarator.childByField? "value"
  guard (value.kind = Kind.callExpression)
  let function ← value.childByField? "function"
  guard (function.kind = Kind.identifier)
  guard (function.text src = callee)
  return value

/-- The first argument of a call. -/
def firstArgument? (call : Node) : Option Node := do
  (← call.childByField? "arguments").significantChildren.head?

/-- The outermost object literals in the first argument of the call of `callee` that initializes
the variable of a declarator. -/
def candidates (src : Source) (callee : String) (declarator : Node) : List Node :=
  match (declarator.initializingCall? src callee).bind firstArgument? with
  | none => []
  | some argument => argument.findKinds [Kind.object] true

/-- What `extract` finds in all candidates of all declarators, in document order. -/
def callMessages (src : Source) (callee : String)
    (extract : Node → Except Escape.Error (List Message)) (root : Node) :
    Except Escape.Error (List Message) :=
  gather (fun declarator => gather extract (declarator.candidates src callee))
    (root.findKinds [Kind.variableDeclarator] false)

/-- The messages of the maps given to `callee`. -/
def bulkMessages (src : Source) (callee : String) (root : Node) :
    Except Escape.Error (List Message) :=
  root.callMessages src callee (mapMessages src)

/-- The messages of the objects given to `callee`. -/
def singleMessages (src : Source) (callee : String) (root : Node) :
    Except Escape.Error (List Message) :=
  root.callMessages src callee (singleMessage src)

/-! ## JSX tags -/

/-- An opening or self-closing tag. -/
def isTag (n : Node) : Bool :=
  n.kind = Kind.jsxOpeningElement || n.kind = Kind.jsxSelfClosingElement

/-- A tag whose name is a plain identifier and reads `name`. -/
def isTagNamed (src : Source) (name : String) (n : Node) : Bool :=
  n.isTag &&
    match n.childByField? "name" with
    | none => false
    | some m => m.kind = Kind.identifier && m.text src = name

/-- The messages of the tags of a given name, in document order. -/
def tagMessages (src : Source) (name : String) (root : Node) :
    Except Escape.Error (List Message) :=
  gather (fun tag => return (← tag.readTag src).message?.toList)
    (root.find (isTagNamed src name) false)

end Node

end MessageHarvest
