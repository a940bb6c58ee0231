import MessageHarvest.Text.Blank
import MessageHarvest.Text.LowerCase
import MessageHarvest.Text.Split

/-!
# The effects that tags name

The name of a tag is a row of words: attributes, each perhaps after `not`, a colour, another one
for the ground after `on`, and an address after `link`. Names of the same effect have the same
`normalName`, so that one may close what another has opened. A name that is no such row stands for
itself, in lower case.
-/

namespace MessageHarvest.Markup

/-! ## Attributes -/

/-- The attributes of a text, in the order in which they are named. -/
inductive Attribute where
  | bold
  | dim
  | italic
  | underline
  | blink
  | fastBlink
  | reverse
  | conceal
  | strike
  | doubleUnderline
  | frame
  | encircle
  | overline
  deriving DecidableEq, Repr

namespace Attribute

/-- All attributes. -/
def all : List Attribute :=
  [bold, dim, italic, underline, blink, fastBlink, reverse, conceal, strike, doubleUnderline,
    frame, encircle, overline]

/-- The words for an attribute, the one that is preferred first. -/
def names : Attribute → List String
  | bold => ["bold", "b"]
  | dim => ["dim", "d"]
  | italic => ["italic", "i"]
  | underline => ["underline", "u"]
  | blink => ["blink"]
  | fastBlink => ["blink2"]
  | reverse => ["reverse", "r"]
  | conceal => ["conceal", "c"]
  | strike => ["strike", "s"]
  | doubleUnderline => ["underline2", "uu"]
  | frame => ["frame"]
  | encircle => ["encircle"]
  | overline => ["overline", "o"]

/-- The preferred word for an attribute. -/
def name (a : Attribute) : String :=
  a.names.headD ""

/-- The attribute that a word stands for. -/
def ofName? (word : String) : Option Attribute :=
  all.find? fun a => a.names.contains word

end Attribute

/-! ## Colours -/

/-- The colours that have names. -/
def colourNames : List String := [
  "black", "red", "green", "yellow", "blue", "magenta", "cyan", "white", "bright_black",
  "bright_red", "bright_green", "bright_yellow", "bright_blue", "bright_magenta", "bright_cyan",
  "bright_white", "grey0", "gray0", "navy_blue", "dark_blue", "blue3", "blue1", "dark_green",
  "deep_sky_blue4", "dodger_blue3", "dodger_blue2", "green4", "spring_green4", "turquoise4",
  "deep_sky_blue3", "dodger_blue1", "green3", "spring_green3", "dark_cyan", "light_sea_green",
  "deep_sky_blue2", "deep_sky_blue1", "spring_green2", "cyan3", "dark_turquoise", "turquoise2",
  "green1", "spring_green1", "medium_spring_green", "cyan2", "cyan1", "dark_red", "deep_pink4",
  "purple4", "purple3", "blue_violet", "orange4", "grey37", "gray37", "medium_purple4",
  "slate_blue3", "royal_blue1", "chartreuse4", "dark_sea_green4", "pale_turquoise4", "steel_blue",
  "steel_blue3", "cornflower_blue", "chartreuse3", "cadet_blue", "sky_blue3", "steel_blue1",
  "pale_green3", "sea_green3", "aquamarine3", "medium_turquoise", "chartreuse2", "sea_green2",
  "sea_green1", "aquamarine1", "dark_slate_gray2", "dark_magenta", "dark_violet", "purple",
  "light_pink4", "plum4", "medium_purple3", "slate_blue1", "yellow4", "wheat4", "grey53",
  "gray53", "light_slate_grey", "light_slate_gray", "medium_purple", "light_slate_blue",
  "dark_olive_green3", "dark_sea_green", "light_sky_blue3", "sky_blue2", "dark_sea_green3",
  "dark_slate_gray3", "sky_blue1", "chartreuse1", "light_green", "pale_green1",
  "dark_slate_gray1", "red3", "medium_violet_red", "magenta3", "dark_orange3", "indian_red",
  "hot_pink3", "medium_orchid3", "medium_orchid", "medium_purple2", "dark_goldenrod",
  "light_salmon3", "rosy_brown", "grey63", "gray63", "medium_purple1", "gold3", "dark_khaki",
  "navajo_white3", "grey69", "gray69", "light_steel_blue3", "light_steel_blue", "yellow3",
  "dark_sea_green2", "light_cyan3", "light_sky_blue1", "green_yellow", "dark_olive_green2",
  "dark_sea_green1", "pale_turquoise1", "deep_pink3", "magenta2", "hot_pink2", "orchid",
  "medium_orchid1", "orange3", "light_pink3", "pink3", "plum3", "violet", "light_goldenrod3",
  "tan", "misty_rose3", "thistle3", "plum2", "khaki3", "light_goldenrod2", "light_yellow3",
  "grey84", "gray84", "light_steel_blue1", "yellow2", "dark_olive_green1", "honeydew2",
  "light_cyan1", "red1", "deep_pink2", "deep_pink1", "magenta1", "orange_red1", "indian_red1",
  "hot_pink", "dark_orange", "salmon1", "light_coral", "pale_violet_red1", "orchid2", "orchid1",
  "orange1", "sandy_brown", "light_salmon1", "light_pink1", "pink1", "plum1", "gold1",
  "navajo_white1", "misty_rose1", "thistle1", "yellow1", "light_goldenrod1", "khaki1", "wheat1",
  "cornsilk1", "grey100", "gray100", "grey3", "gray3", "grey7", "gray7", "grey11", "gray11",
  "grey15", "gray15", "grey19", "gray19", "grey23", "gray23", "grey27", "gray27", "grey30",
  "gray30", "grey35", "gray35", "grey39", "gray39", "grey42", "gray42", "grey46", "gray46",
  "grey50", "gray50", "grey54", "gray54", "grey58", "gray58", "grey62", "gray62", "grey66",
  "gray66", "grey70", "gray70", "grey74", "gray74", "grey78", "gray78", "grey82", "gray82",
  "grey85", "gray85", "grey89", "gray89", "grey93", "gray93"]

/-- What stands between the parentheses after a word. -/
def argument? (word : String) (text : String) : Option (List Char) :=
  let cs := text.toList
  let opening := word.toList ++ ['(']
  if opening.isPrefixOf cs && cs.getLast? = some ')' then
    some ((cs.drop opening.length).dropLast)
  else none

/-- A decimal number that fits a byte. -/
def isByte (digits : List Char) : Bool :=
  !digits.isEmpty && digits.all Char.isDigit && Nat.ofDigitChars 10 digits 0 ≤ 255

/-- A hexadecimal digit in lower case. -/
def isHexDigit (c : Char) : Bool :=
  c.isDigit || ('a' ≤ c && c ≤ 'f')

/-- A word in lower case names a colour: by its name, by its number, or by its three parts. -/
def isColour (word : String) : Bool :=
  word = "default" || colourNames.contains word ||
    (match word.toList with
      | '#' :: digits => digits.length = 6 && digits.all isHexDigit
      | _ => false) ||
    (match argument? "color" word with
      | some digits => digits.length ≤ 3 && isByte digits
      | none => false) ||
    (match argument? "rgb" word with
      | some inner => (Text.split ',' inner).length = 3 && (Text.split ',' inner).all isByte
      | none => false)

/-! ## Effects -/

/-- What a tag does to the text up to its end. -/
structure Effect where
  attributes : Attribute → Option Bool
  colour : Option String
  ground : Option String
  link : Option String

namespace Effect

/-- Nothing changes. -/
def none : Effect := ⟨fun _ => Option.none, Option.none, Option.none, Option.none⟩

/-- Sets an attribute, or takes it away. -/
def withAttribute (e : Effect) (a : Attribute) (isSet : Bool) : Effect :=
  { e with attributes := fun b => if b = a then some isSet else e.attributes b }

/-- Reads further words into an effect. -/
def read? (e : Effect) : List String → Option Effect
  | [] => some e
  | word :: rest =>
    let lower := LowerCase.lower word
    if lower = "on" then
      match rest with
      | [] => Option.none
      | ground :: rest =>
        let ground := LowerCase.lower ground
        if isColour ground then read? { e with ground := some ground } rest else Option.none
    else if lower = "not" then
      match rest with
      | [] => Option.none
      | name :: rest => do read? (e.withAttribute (← Attribute.ofName? name) false) rest
    else if lower = "link" then
      match rest with
      | [] => Option.none
      | address :: rest => read? { e with link := some address } rest
    else
      match Attribute.ofName? lower with
      | some a => read? (e.withAttribute a true) rest
      | Option.none =>
        if isColour lower then read? { e with colour := some lower } rest else Option.none

/-- The words that name an effect. -/
def words (e : Effect) : List String :=
  (Attribute.all.flatMap fun a =>
    match e.attributes a with
    | some true => [a.name]
    | some false => ["not", a.name]
    | Option.none => []) ++
  e.colour.toList ++
  (e.ground.map fun g => ["on", g]).getD [] ++
  (e.link.map fun l => ["link", l]).getD []

/-- The name of an effect. -/
def name (e : Effect) : String :=
  if e.words.isEmpty then "none" else " ".intercalate e.words

end Effect

/-- The name that all names of one effect share. -/
def normalName (name : List Char) : String :=
  if Text.trim name = "none".toList then Effect.none.name
  else
    match Effect.none.read? ((Text.words name).map String.ofList) with
    | some e => e.name
    | none => LowerCase.lower (String.ofList (Text.trim name))

end MessageHarvest.Markup
