/-!
# Names

The name grammars of XML 1.0 (fifth edition) and of Namespaces in XML: `Name`,
`NCName`, `NMTOKEN` and `QName`. A `QName` is a local name, or a prefix and a
local name with one colon between them.
-/

namespace SimpleTypes

/-! ## Characters -/

/-- The characters that may begin a name, as closed intervals. -/
def nameStartRanges : List (Nat × Nat) := [
  (0x3A, 0x3A), (0x41, 0x5A), (0x5F, 0x5F), (0x61, 0x7A), (0xC0, 0xD6), (0xD8, 0xF6),
  (0xF8, 0x2FF), (0x370, 0x37D), (0x37F, 0x1FFF), (0x200C, 0x200D), (0x2070, 0x218F),
  (0x2C00, 0x2FEF), (0x3001, 0xD7FF), (0xF900, 0xFDCF), (0xFDF0, 0xFFFD), (0x10000, 0xEFFFF)]

/-- The characters that may stand in a name but not begin one. -/
def nameExtraRanges : List (Nat × Nat) := [
  (0x2D, 0x2D), (0x2E, 0x2E), (0x30, 0x39), (0xB7, 0xB7), (0x300, 0x36F), (0x203F, 0x2040)]

/-- Whether a character lies in one of the closed intervals. -/
def inRanges (ranges : List (Nat × Nat)) (c : Char) : Bool :=
  ranges.any (fun (first, last) => first ≤ c.toNat && c.toNat ≤ last)

/-- The production `NameStartChar`. -/
def isNameStart (c : Char) : Bool := inRanges nameStartRanges c

/-- The production `NameChar`. -/
def isNameChar (c : Char) : Bool := isNameStart c || inRanges nameExtraRanges c

/-! ## Names -/

/-- The production `Name`. -/
def isName : List Char → Bool
  | [] => false
  | c :: rest => isNameStart c && rest.all isNameChar

/-- A name without a colon. -/
def isNCName (text : List Char) : Bool := !text.contains ':' && isName text

/-- The production `Nmtoken`: one or more name characters. -/
def isNmtoken (text : List Char) : Bool := !text.isEmpty && text.all isNameChar

/-- The part before the first colon, if there is a colon, and the part after
it, or the whole text if there is none. -/
def splitAtColon (text : List Char) : Option (List Char) × List Char :=
  match text.dropWhile (· != ':') with
  | [] => (none, text)
  | _ :: rest => (some (text.takeWhile (· != ':')), rest)

/-- The production `QName`. -/
def isQName (text : List Char) : Bool :=
  match splitAtColon text with
  | (some before, after) => isNCName before && isNCName after
  | (none, whole) => isNCName whole

end SimpleTypes
