import SimpleTypes.Error.Basic
import SimpleTypes.Name.Bindings
import SimpleTypes.Name.Grammar

/-!
# Reading atomic texts

From a text whose blanks have been treated to a native value. Each primitive
type has its own grammar. A built-in type may add a rule to the grammar of its
primitive type: `LexicalRule` lists these rules.

Limits are tested before the grammar. A decimal with too many digits, or a date
or a duration with too long a field, is withheld even if it is malformed.

* `readAtomic` reads a text as a value of a primitive type under a rule.
* `readDecimal`, `readTemporal` and `readQName` are its parts that need limits
  or namespace bindings.
-/

namespace SimpleTypes

/-! ## Rules -/

/-- What a built-in type demands of a text beyond the grammar of its primitive
type. -/
inductive LexicalRule where
  | plain
  | integer
  | normalizedString
  | token
  | language
  | name
  | ncName
  | nmtoken
  deriving DecidableEq, Repr

/-- A value that was read, or the text that could not be read. -/
def orInvalid {α : Type} (form : LexicalForm) (text : String) (value? : Option α) :
    Except Invalid α :=
  match value? with
  | some value => .ok value
  | none => .error (.lexical form text)

/-- The text itself, if it has the form. -/
def accept (form : LexicalForm) (text : String) (holds : Bool) : Except Invalid String :=
  if holds then .ok text else .error (.lexical form text)

/-! ## Texts as values -/

/-- No tab, line feed or carriage return. -/
def isNormalized (text : List Char) : Bool := !text.any (fun c => isBlank c && c != ' ')

/-- Whether two spaces follow each other. -/
def hasDoubleSpace : List Char → Bool
  | a :: b :: rest => (a == ' ' && b == ' ') || hasDoubleSpace (b :: rest)
  | _ => false

/-- No blank but single spaces between other characters. -/
def isToken (text : List Char) : Bool :=
  isNormalized text && text.head? != some ' ' && text.getLast? != some ' '
    && !hasDoubleSpace text

/-- Reads a string. The rule for integers says nothing about strings. -/
def readString (rule : LexicalRule) (text : String) : Except Invalid String :=
  match rule with
  | .plain | .integer => .ok text
  | .normalizedString => accept .normalizedString text (isNormalized text.toList)
  | .token => accept .token text (isToken text.toList)
  | .language =>
    match languageFault? text.toList with
    | some fault => .error (.lexical (.language fault) text)
    | none => .ok text
  | .name => accept .name text (isName text.toList)
  | .ncName => accept .ncName text (isNCName text.toList)
  | .nmtoken => accept .nmtoken text (isNmtoken text.toList)

/-- The control characters: the first thirty-two and those from 7F to 9F. -/
def isControl (c : Char) : Bool := c.toNat < 0x20 || (0x7F ≤ c.toNat && c.toNat < 0xA0)

/-- Reads a reference to a resource: any text without control characters. -/
def readAnyUri (text : String) : Except Invalid String :=
  accept .anyUri text (!text.toList.any isControl)

/-- Reads one of the four names of the two truth values. -/
def readBoolean (text : String) : Except Invalid Bool :=
  if text == "true" || text == "1" then .ok true
  else if text == "false" || text == "0" then .ok false
  else .error (.lexical .boolean text)

/-! ## Numbers -/

/-- A sign or none, and one or more digits. -/
def isIntegerNumeral (text : List Char) : Bool :=
  let digits := (Decimal.readSign text).2
  !digits.isEmpty && digits.all Char.isDigit

/-- Reads a decimal numeral, or an integer numeral under the rule for integers.
The limit counts all digits of the text. -/
def readDecimal (rule : LexicalRule) (text : String) (limits : Limits) : Except Error Decimal := do
  Error.ofLimit (limits.checkDecimalDigits (text.toList.countP Char.isDigit))
  let form := if rule = .integer then .integer else .decimal
  if rule = .integer && !isIntegerNumeral text.toList then
    throw (.invalid (.lexical form text))
  Error.ofInvalid (orInvalid form text (Decimal.parse? text.toList))

/-! ## Dates, times and durations -/

/-- The longest run of digits that does not stand directly after a point, or
`widest` if that is longer. A run of `run` digits has just been passed;
`fractional` tells that it stands after a point. -/
def widestFieldFrom (widest run : Nat) (fractional : Bool) : List Char → Nat
  | [] => if fractional then widest else max widest run
  | c :: rest =>
    if c.isDigit then widestFieldFrom widest (run + 1) fractional rest
    else widestFieldFrom (if fractional then widest else max widest run) 0 (c == '.') rest

/-- The longest run of digits that does not stand directly after a point. -/
def widestField (text : List Char) : Nat := widestFieldFrom 0 0 false text

/-- Reads a date, a time or a duration with its own grammar. The limit counts
the digits of the widest field that is no fraction. -/
def readTemporal {α : Type} (form : LexicalForm) (parse? : List Char → Option α) (text : String)
    (limits : Limits) : Except Error α := do
  Error.ofLimit (limits.checkTemporalDigits (widestField text.toList))
  Error.ofInvalid (orInvalid form text (parse? text.toList))

/-! ## Qualified names -/

/-- The namespace of a name. A prefix must be bound. A name without a prefix
lies in the default namespace, if there are bindings at all. -/
def resolve (prefixPart : Option String) (bindings? : Option Bindings) :
    Except Invalid (Option String) :=
  match prefixPart, bindings? with
  | some before, some bindings =>
    match bindings.namespace? before with
    | some uri => .ok (some uri)
    | none => .error (.unboundPrefix before)
  | some before, none => .error (.noBindings before)
  | none, some bindings => .ok bindings.default?
  | none, none => .ok none

/-- Reads a qualified name and resolves its prefix. -/
def readQName (text : String) (bindings? : Option Bindings) : Except Invalid QNameValue := do
  let (before, after) := splitAtColon text.toList
  if !isQName text.toList then throw (.lexical .qName text)
  let prefixPart := before.map String.ofList
  let uri ← resolve prefixPart bindings?
  return ⟨uri, String.ofList after, prefixPart⟩

/-! ## All primitive types -/

/-- Reads a text as a value of a primitive type under a rule. -/
def readAtomic (primitive : Primitive) (rule : LexicalRule) (text : String)
    (bindings? : Option Bindings) (limits : Limits) : Except Error Native :=
  match primitive with
  | .string => Native.string <$> Error.ofInvalid (readString rule text)
  | .boolean => Native.boolean <$> Error.ofInvalid (readBoolean text)
  | .decimal => Native.decimal <$> readDecimal rule text limits
  | .float =>
    Native.float <$> Error.ofInvalid (orInvalid .float text (Floating.parse? .single text.toList))
  | .double =>
    Native.double <$> Error.ofInvalid (orInvalid .double text (Floating.parse? .double text.toList))
  | .duration => Native.duration <$> readTemporal .duration Duration.parse? text limits
  | .temporal kind =>
    Native.moment <$> readTemporal (.temporal kind) (Moment.parse? kind) text limits
  | .hexBinary =>
    Native.octets <$> Error.ofInvalid ((Hex.decode text.toList).mapError .hexBinary)
  | .base64Binary =>
    Native.octets <$> Error.ofInvalid ((Base64.decode text.toList).mapError .base64Binary)
  | .anyUri => Native.string <$> Error.ofInvalid (readAnyUri text)
  | .qName | .notationName => Native.qName <$> Error.ofInvalid (readQName text bindings?)

end SimpleTypes
