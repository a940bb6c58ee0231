/-!
# Tokens of markup

In markup a text holds tags between brackets. A backslash before a tag takes away its meaning, and
a backslash before it that one's. Markup is cut into plain characters, brackets that begin no tag,
and tags, the latter two with the backslashes before them.
-/

namespace MessageHarvest.Markup

/-- A part of markup. -/
inductive Token where
  /-- A character that stands for itself. -/
  | char (c : Char)
  /-- An opening bracket that begins no tag, after so many backslashes. -/
  | bracket (backslashes : Nat)
  /-- A tag with what stands between its brackets, after so many backslashes. -/
  | tag (backslashes : Nat) (body : List Char)
  deriving DecidableEq, Repr

/-- The characters that begin the body of a tag. -/
def opensBody (c : Char) : Bool :=
  ('a' ≤ c && c ≤ 'z') || c = '#' || c = '/' || c = '@'

/-- What stands before the next closing bracket, if no opening one comes first. -/
def untilClose? : List Char → Option (List Char)
  | [] => none
  | c :: rest =>
    if c = ']' then some []
    else if c = '[' then none
    else (untilClose? rest).map (c :: ·)

/-- The body of the tag that an opening bracket before this text begins. -/
def body? : List Char → Option (List Char)
  | [] => none
  | c :: rest => if opensBody c then (untilClose? rest).map (c :: ·) else none

/-- So many backslashes. -/
def backslashes (n : Nat) : List Char := List.replicate n '\\'

/-- The tokens of a text before which so many backslashes stand, but for its first `skip`
characters, which a tag before has taken. -/
def tokensFrom (skip before : Nat) : List Char → List Token
  | [] => (backslashes before).map .char
  | c :: rest =>
    match skip with
    | skip + 1 => tokensFrom skip before rest
    | 0 =>
      if c = '\\' then tokensFrom 0 (before + 1) rest
      else if c = '[' then
        match body? rest with
        | some body => .tag before body :: tokensFrom (body.length + 1) 0 rest
        | none => .bracket before :: tokensFrom 0 0 rest
      else (backslashes before).map .char ++ .char c :: tokensFrom 0 0 rest

/-- The tokens of a text. -/
def tokens (cs : List Char) : List Token :=
  tokensFrom 0 0 cs

end MessageHarvest.Markup
