/-!
# Language tags

The tags of `xs:language`: subtags with hyphens between them. The primary
subtag is two to eight letters, or one of the single letters `i` and `x`. Every
later subtag is one to eight letters or digits. Letters and digits are those of
ASCII, and lengths are counted in the bytes of UTF-8.
-/

namespace SimpleTypes

/-- Which subtag of a language tag is malformed. -/
inductive LanguageFault where
  | primaryTag
  | subsequentTag
  deriving DecidableEq, Repr

/-! ## Bytes -/

/-- The bytes of a text in UTF-8. -/
def utf8Bytes (text : List Char) : List UInt8 := text.flatMap String.utf8EncodeChar

/-- Whether a byte is a letter of ASCII. -/
def isLetterByte (byte : UInt8) : Bool :=
  (0x41 ≤ byte && byte ≤ 0x5A) || (0x61 ≤ byte && byte ≤ 0x7A)

/-- Whether a byte is a letter or a digit of ASCII. -/
def isAlphanumericByte (byte : UInt8) : Bool :=
  isLetterByte byte || (0x30 ≤ byte && byte ≤ 0x39)

/-! ## Subtags -/

/-- Whether a text has one to eight bytes, all of one kind. -/
def isShortRun (isOfKind : UInt8 → Bool) (text : List Char) : Bool :=
  let bytes := utf8Bytes text
  !bytes.isEmpty && bytes.length ≤ 8 && bytes.all isOfKind

/-- Whether a text can be the first subtag. A single letter must be `i` or `x`,
in either case. -/
def isPrimarySubtag (subtag : List Char) : Bool :=
  isShortRun isLetterByte subtag
    && ((utf8Bytes subtag).length != 1 || subtag.map Char.toLower == ['i']
      || subtag.map Char.toLower == ['x'])

/-- Whether a text can be a later subtag. -/
def isLaterSubtag (subtag : List Char) : Bool := isShortRun isAlphanumericByte subtag

/-- What is wrong with a language tag. The primary subtag is looked at first. -/
def languageFault? (tag : List Char) : Option LanguageFault :=
  let subtags := tag.splitOn '-'
  if !isPrimarySubtag (subtags.headD []) then some .primaryTag
  else if !subtags.tail.all isLaterSubtag then some .subsequentTag
  else none

end SimpleTypes
