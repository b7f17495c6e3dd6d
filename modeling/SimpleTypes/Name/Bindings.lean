/-!
# Namespace bindings

A snapshot of bindings is a list of frames, the latest first. To bind is to put
a frame in front of the frames of an earlier snapshot, which stays as it was.
Every frame carries a stamp. `History` makes snapshots one after the other and
gives no stamp twice, so a stamp names one act of binding and two separate acts
stay apart even if they bind the same prefix to the same namespace.

* `Bindings.lookup?` reads the latest frame of a prefix. An empty namespace in
  that frame undoes the binding.
* `Bindings.isAncestorOf` compares stamps, not contents.
-/

namespace SimpleTypes

/-- The namespace to which the prefix `xml` is bound for good. -/
def xmlNamespace : String := "http://www.w3.org/XML/1998/namespace"

/-- One act of binding. It binds a prefix, or the default namespace if `name`
is absent. -/
structure Frame where
  stamp : Nat
  name : Option String
  uri : String
  deriving DecidableEq, Repr

/-- A snapshot of bindings: its frames, the latest first. -/
structure Bindings where
  frames : List Frame
  deriving DecidableEq, Repr

namespace Bindings

/-- The snapshot without frames. -/
def empty : Bindings := ⟨[]⟩

/-- The snapshot with one more frame. -/
def bind (bindings : Bindings) (stamp : Nat) (name : Option String) (uri : String) : Bindings :=
  ⟨⟨stamp, name, uri⟩ :: bindings.frames⟩

/-- The namespace of the latest frame of a name, unless it is empty. -/
def lookup? (bindings : Bindings) (name : Option String) : Option String :=
  match bindings.frames.find? (fun frame => frame.name == name) with
  | some frame => if frame.uri.isEmpty then none else some frame.uri
  | none => none

/-- The namespace of a prefix. The prefix `xml` cannot be bound anew. -/
def namespace? (bindings : Bindings) (name : String) : Option String :=
  if name == "xml" then some xmlNamespace else bindings.lookup? (some name)

/-- The default namespace. -/
def default? (bindings : Bindings) : Option String := bindings.lookup? none

/-- The number of frames, shadowed ones included. -/
def depth (bindings : Bindings) : Nat := bindings.frames.length

/-- Whether `later` was made from `bindings` by zero or more acts of binding. -/
def isAncestorOf (bindings later : Bindings) : Bool :=
  match bindings.frames with
  | [] => true
  | frame :: _ => later.frames.any (fun other => other.stamp == frame.stamp)

/-- Binds pairs in order, each with its place in the list as its stamp. -/
def ofPairs (pairs : List (Option String × String)) : Bindings :=
  pairs.zipIdx.foldl (fun made (pair, stamp) => made.bind stamp pair.1 pair.2) empty

end Bindings

/-! ## Histories -/

/-- The snapshots made so far, in the order in which they were made, and the
next stamp. -/
structure History where
  snapshots : List Bindings
  nextStamp : Nat
  deriving DecidableEq, Repr

namespace History

/-- A history begins with the empty snapshot. -/
def start : History := ⟨[Bindings.empty], 0⟩

/-- The snapshot of a number. Numbers not yet given stand for the empty one. -/
def snapshot (history : History) (number : Nat) : Bindings :=
  history.snapshots[number]?.getD Bindings.empty

/-- Makes one new snapshot from an old one by a series of bindings. -/
def bindAll (history : History) (number : Nat) (pairs : List (Option String × String)) : History :=
  let first := history.nextStamp
  let made := (pairs.zipIdx first).foldl
    (fun made (pair, stamp) => made.bind stamp pair.1 pair.2) (history.snapshot number)
  ⟨history.snapshots ++ [made], first + pairs.length⟩

/-- Makes a new snapshot from an old one by one binding. -/
def bind (history : History) (number : Nat) (name : Option String) (uri : String) : History :=
  history.bindAll number [(name, uri)]

end History

end SimpleTypes
