import SimpleTypes.Facet.Kind
import SimpleTypes.Name.Language

/-!
# Kinds of errors

The kinds of invalid texts, which a caller can tell apart, and the fixed
identifier of each kind.
-/

namespace SimpleTypes

/-- What a text was expected to be, by its characters alone. -/
inductive LexicalForm where
  | boolean
  | decimal
  | integer
  | float
  | double
  | duration
  | temporal (kind : TemporalKind)
  | qName
  | base64Binary
  | hexBinary
  | anyUri
  | normalizedString
  | token
  | name
  | ncName
  | nmtoken
  | language (fault : LanguageFault)
  deriving DecidableEq, Repr

/-- A declaration that can fix its value. -/
inductive Site where
  | attribute
  | element
  deriving DecidableEq, Repr

/-- The kinds of invalid texts. -/
inductive ErrorKind where
  | lexical (form : LexicalForm)
  | surrogatePair
  | length
  | minLength
  | maxLength
  | totalDigits
  | fractionDigits
  | range (kind : RangeKind)
  | enumeration
  | union
  | fixed (site : Site)
  deriving DecidableEq, Repr

/-- The identifier of a form of a date or time. -/
def TemporalKind.errorName : TemporalKind → String
  | dateTime => "INVALID_DATETIME"
  | time => "INVALID_TIME"
  | date => "INVALID_DATE"
  | gYearMonth => "INVALID_GYEARMONTH"
  | gYear => "INVALID_GYEAR"
  | gMonthDay => "INVALID_GMONTHDAY"
  | gDay => "INVALID_GDAY"
  | gMonth => "INVALID_GMONTH"

/-- The identifier of a form. -/
def LexicalForm.errorName : LexicalForm → String
  | boolean => "INVALID_BOOLEAN"
  | decimal => "INVALID_DECIMAL"
  | integer => "INVALID_INTEGER"
  | float => "INVALID_FLOAT"
  | double => "INVALID_DOUBLE"
  | duration => "INVALID_DURATION"
  | temporal kind => kind.errorName
  | qName => "INVALID_QNAME"
  | base64Binary => "INVALID_BASE64_BINARY"
  | hexBinary => "INVALID_HEX_BINARY"
  | anyUri => "INVALID_ANYURI"
  | normalizedString => "INVALID_NORMALIZED_STRING"
  | token => "INVALID_TOKEN"
  | name => "INVALID_NAME"
  | ncName => "INVALID_NCNAME"
  | nmtoken => "INVALID_NMTOKEN"
  | language .primaryTag => "INVALID_LANGUAGE_PRIMARY_TAG"
  | language .subsequentTag => "INVALID_LANGUAGE_SUBSEQUENT_TAG"

/-- The identifier of a bound. -/
def RangeKind.errorName : RangeKind → String
  | minInclusive => "MIN_INCLUSIVE_INVALID"
  | maxInclusive => "MAX_INCLUSIVE_INVALID"
  | minExclusive => "MIN_EXCLUSIVE_INVALID"
  | maxExclusive => "MAX_EXCLUSIVE_INVALID"

namespace ErrorKind

/-- The identifier of a kind. -/
def name : ErrorKind → String
  | lexical form => form.errorName
  | surrogatePair => "INVALID_SURROGATE_PAIR"
  | length => "LENGTH_INVALID"
  | minLength => "MIN_LENGTH_INVALID"
  | maxLength => "MAX_LENGTH_INVALID"
  | totalDigits => "TOTAL_DIGITS_INVALID"
  | fractionDigits => "FRACTION_DIGITS_INVALID"
  | range kind => kind.errorName
  | enumeration => "INVALID_ENUMERATION"
  | union => "INVALID_UNION"
  | fixed .attribute => "ATTRIBUTE_INVALID_PER_FIXED"
  | fixed .element => "ELEMENT_INVALID_PER_FIXED"

/-- Whether the kind is that of a violated facet. -/
def isFacetViolation : ErrorKind → Bool
  | lexical _ | surrogatePair | union | fixed _ => false
  | _ => true

end ErrorKind

end SimpleTypes
