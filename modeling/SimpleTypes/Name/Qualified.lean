/-!
# Qualified names

A name with the namespace it lies in. The empty namespace text is a namespace
of its own, different from no namespace. Names are ordered by namespace, those
without one first, and then by local part. Texts are ordered by code point.
-/

namespace SimpleTypes

/-- A local part in a namespace, or in none. -/
structure QName where
  uri : Option String
  localPart : String
  deriving DecidableEq, Repr

namespace QName

/-- The namespace in braces before the local part. -/
def display (name : QName) : String :=
  match name.uri with
  | some uri => "\x7b" ++ uri ++ "\x7d" ++ name.localPart
  | none => name.localPart

/-- No namespace first, then by namespace, then by local part. -/
def order (a b : QName) : Ordering :=
  (compare a.uri b.uri).then (compare a.localPart b.localPart)

/-- Puts a name into a rising list of names, unless it is there. -/
def insertSorted (name : QName) : List QName → List QName
  | [] => [name]
  | other :: rest =>
    match order name other with
    | .lt => name :: other :: rest
    | .eq => other :: rest
    | .gt => other :: insertSorted name rest

/-- The names in rising order, each once. -/
def sorted (names : List QName) : List QName := names.foldr insertSorted []

end QName

end SimpleTypes
