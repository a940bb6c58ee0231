import MessageHarvest.Markup.Effect
import MessageHarvest.Markup.Token

/-!
# The text that markup shows

`render` shows markup without the effects of its tags, so that of a tag nothing is left. It fails
only at a closing tag that has nothing to close. Tags that are still open at the end do no harm.

Two things are left out. Codes between colons (`:smile:`) are shown as they are, and not as the
signs that they stand for. The parameters of a tag that names a handler (`[@click=...]`) are not
read when the tag is closed, so that they cannot be faulty.
-/

namespace MessageHarvest.Markup

/-- A closing tag has nothing to close. -/
structure Error where
  body : List Char
  deriving DecidableEq, Repr

/-- The names of the tags that are open after a tag, the innermost first. A tag whose name is a
mere slash closes the innermost one, another closing tag the innermost one of its name. -/
def afterTag (opened : List String) (body : List Char) : Except Error (List String) :=
  match body.takeWhile (· ≠ '=') with
  | '/' :: name =>
    let name := Text.trim name
    if name.isEmpty then
      match opened with
      | [] => .error ⟨body⟩
      | _ :: outer => .ok outer
    else if normalName name ∈ opened then .ok (opened.erase (normalName name))
    else .error ⟨body⟩
  | name => .ok (normalName name :: opened)

/-- What a token shows, and the tags that are open after it. Two backslashes before a tag show
one; a single one makes the tag visible. Before other brackets a backslash is not shown. -/
def Token.render (opened : List String) : Token → Except Error (List Char × List String)
  | char c => .ok ([c], opened)
  | bracket n => .ok (backslashes (n - 1) ++ ['['], opened)
  | tag n body =>
    if n % 2 = 1 then .ok (backslashes (n / 2) ++ '[' :: body ++ [']'], opened)
    else (afterTag opened body).map fun opened => (backslashes (n / 2), opened)

/-- What tokens show after others that have opened tags. -/
def renderTokens (opened : List String) : List Token → Except Error (List Char)
  | [] => .ok []
  | t :: rest => do
    let (shown, opened) ← t.render opened
    return shown ++ (← renderTokens opened rest)

/-- What markup shows; codes between colons and parameters of handlers are taken for plain text. -/
def render (markup : String) : Except Error String :=
  (renderTokens [] (tokens markup.toList)).map String.ofList

end MessageHarvest.Markup
