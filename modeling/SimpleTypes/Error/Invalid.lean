import SimpleTypes.Error.Kind
import SimpleTypes.Text.Units
import SimpleTypes.Value.Typed

/-!
# Invalid texts

Why a text is not a value of a type, by cause. `Invalid.kind` groups the causes
into kinds, and `Invalid.message` words them.
-/

namespace SimpleTypes

/-- Why a text is not a value of a type. -/
inductive Invalid where
  | lexical (form : LexicalForm) (text : String)
  | unboundPrefix (prefixPart : String)
  | noBindings (prefixPart : String)
  | hexBinary (fault : OctetFault)
  | base64Binary (fault : OctetFault)
  | surrogatePair (fault : Units.Unpaired)
  | length (required actual : Nat)
  | minLength (least actual : Nat)
  | maxLength (most actual : Nat)
  | totalDigits (most : Nat) (value : Decimal)
  | fractionDigits (most : Nat) (value : Decimal)
  | range (kind : RangeKind) (bound value : Atom)
  | enumeration (allowed : List TypedValue) (value : TypedValue)
  | union (name text : String)
  | fixed (site : Site) (required value : TypedValue)
  deriving DecidableEq, Repr

namespace Invalid

/-- The kind of a cause. -/
def kind : Invalid → ErrorKind
  | lexical form _ => .lexical form
  | unboundPrefix _ | noBindings _ => .lexical .qName
  | hexBinary _ => .lexical .hexBinary
  | base64Binary _ => .lexical .base64Binary
  | surrogatePair _ => .surrogatePair
  | length _ _ => .length
  | minLength _ _ => .minLength
  | maxLength _ _ => .maxLength
  | totalDigits _ _ => .totalDigits
  | fractionDigits _ _ => .fractionDigits
  | range kind _ _ => .range kind
  | enumeration _ _ => .enumeration
  | union _ _ => .union
  | fixed site _ _ => .fixed site

/-- The value that a cause carries: only a value that is not the fixed one. -/
def value? : Invalid → Option TypedValue
  | fixed _ _ value => some value
  | _ => none

/-- What a cause says about the text. -/
def summary : Invalid → String
  | lexical _ text => "'" ++ text ++ "' is not a valid lexical value"
  | unboundPrefix _ => "unbound namespace prefix"
  | noBindings _ => "prefixed name without namespace bindings"
  | hexBinary _ => "invalid hexBinary value"
  | base64Binary _ => "invalid base64Binary value"
  | surrogatePair _ => "unpaired surrogate in UTF-16 input"
  | length required _ => s!"Length must be exactly {required}"
  | minLength least _ => s!"Length must be at least {least}"
  | maxLength most _ => s!"Length must be at most {most}"
  | totalDigits most _ => s!"Value exceeds totalDigits limit of {most}"
  | fractionDigits most _ => s!"Value exceeds fractionDigits limit of {most}"
  | range kind bound _ => "Value must be " ++ kind.relation ++ " " ++ bound.canonical
  | enumeration _ _ => "Value is not in the enumeration"
  | union name _ => "no member type of " ++ name ++ " accepts the value"
  | fixed _ required _ => "value must equal the fixed value '" ++ required.canonical ++ "'"

/-- A surrogate in four upper-case hexadecimal digits. -/
def unitText (unit : UInt16) : String :=
  "0x" ++ (String.ofList (Nat.toDigits 16 unit.toNat)).toUpper

/-- The detail of a cause. -/
def reason? : Invalid → Option String
  | lexical _ _ => none
  | unboundPrefix before => some ("prefix '" ++ before ++ "' is not declared")
  | noBindings before => some ("cannot resolve prefix '" ++ before ++ "'")
  | hexBinary fault | base64Binary fault => some fault.message
  | surrogatePair fault =>
    some ("code unit " ++ unitText fault.unit ++ " at character " ++ toString fault.position)
  | length _ actual | minLength _ actual | maxLength _ actual => some s!"Actual length: {actual}"
  | totalDigits _ value =>
    some ("Value " ++ String.ofList value.canonical ++ " has " ++ toString value.totalDigits
      ++ " significant digits")
  | fractionDigits _ value =>
    some ("Value " ++ String.ofList value.canonical ++ " has " ++ toString value.fractionDigits
      ++ " fractional digits")
  | range _ _ value => some ("Value: " ++ value.canonical)
  | enumeration allowed value =>
    some ("Value " ++ Quoted.string value.canonical ++ ", allowed values: "
      ++ Quoted.list (allowed.map TypedValue.canonical))
  | union _ text => some ("Value: '" ++ text ++ "'")
  | fixed _ _ value => some ("Value: '" ++ value.canonical ++ "'")

/-- The message of a cause: kind, summary and detail. -/
def message (cause : Invalid) : String :=
  "[" ++ cause.kind.name ++ "] " ++ cause.summary
    ++ (match cause.reason? with
      | some reason => "\n\nReason: " ++ reason
      | none => "")

end Invalid

end SimpleTypes
