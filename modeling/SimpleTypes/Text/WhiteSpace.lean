/-!
# White space

The four blanks of XML, the words of a text, and the three modes in which a
type treats blanks before it reads a text.

* `words` cuts a text at its blanks and drops the empty pieces.
* `collapseBlanks` reads the text once. It writes one space where a run of
  blanks stands between two words and nothing where it stands at an end.
* `WhiteSpace.normalize` applies a mode to a text. The modes are ordered by
  `WhiteSpace.strength`: a derived type may only strengthen the inherited mode.
-/

namespace SimpleTypes

/-! ## Blanks and words -/

/-- Space, tab, line feed and carriage return are the blanks of XML. No other
character counts, not even other white space of Unicode. -/
def isBlank (c : Char) : Bool :=
  c == ' ' || c == '\t' || c == '\n' || c == '\r'

/-- The words of a text: its pieces between blanks, less the empty ones. -/
def words (text : List Char) : List (List Char) :=
  (text.splitOnP isBlank).filter (fun word => !word.isEmpty)

/-- Every tab, line feed and carriage return becomes a space. -/
def replaceBlanks (text : List Char) : List Char :=
  text.map (fun c => if isBlank c then ' ' else c)

/-- What is left of a text after a word has begun. With `gap` a blank has been
passed, so the next character that is no blank is written after a space. -/
def collapseRest : Bool → List Char → List Char
  | _, [] => []
  | gap, c :: rest =>
    if isBlank c then collapseRest true rest
    else if gap then ' ' :: c :: collapseRest false rest
    else c :: collapseRest false rest

/-- One space for each run of blanks between two words, none at the ends. -/
def collapseBlanks : List Char → List Char
  | [] => []
  | c :: rest => if isBlank c then collapseBlanks rest else c :: collapseRest false rest

/-! ## Modes -/

/-- How a type treats the blanks of a text before it reads it. -/
inductive WhiteSpace where
  | preserve
  | replace
  | collapse
  deriving DecidableEq, Repr

namespace WhiteSpace

/-- The word for the mode in a schema. -/
def name : WhiteSpace → String
  | preserve => "preserve"
  | replace => "replace"
  | collapse => "collapse"

/-- The mode of a schema word. -/
def ofName? (word : String) : Option WhiteSpace :=
  [preserve, replace, collapse].find? (fun mode => mode.name == word)

/-- A stronger mode changes every text that a weaker one changes. -/
def strength : WhiteSpace → Nat
  | preserve => 0
  | replace => 1
  | collapse => 2

/-- The stronger of two modes. -/
def max (a b : WhiteSpace) : WhiteSpace :=
  if a.strength ≤ b.strength then b else a

/-- A mode as a function on the characters of a text. -/
def apply : WhiteSpace → List Char → List Char
  | preserve, text => text
  | replace, text => replaceBlanks text
  | collapse, text => collapseBlanks text

/-- The text in the given mode. -/
def normalize (mode : WhiteSpace) (text : String) : String :=
  String.ofList (mode.apply text.toList)

end WhiteSpace

/-- The text in a mode that may be absent. A type without a mode leaves its
texts as they are. -/
def normalizeText (mode : Option WhiteSpace) (text : String) : String :=
  match mode with
  | some mode => mode.normalize text
  | none => text

end SimpleTypes
