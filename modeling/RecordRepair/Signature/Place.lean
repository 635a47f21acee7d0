import RecordRepair.FormatError
import RecordRepair.Signature.Event

/-! # Where in a signature an event stands

A `Place` is what is known after some events: how many structures are open, which part of the
signature is being described, how many array dimensions stand directly before the last event, and
which type parameters have been declared.

* `Place.advance` takes one more event into account, whatever it is.
* `Place.apply` refuses a `close` for which nothing is open, and `Place.finish` a place where
  something still is. -/

namespace RecordRepair.Signature

/-- The part of a signature that a type belongs to. -/
inductive Part where
  /-- The type of a field or of a record component. -/
  | field
  /-- The bounds of a type parameter. -/
  | formalBound
  | superclass
  | interface
  /-- A method parameter, counted from zero. -/
  | parameter (index : Nat)
  | returnType
  | exception
deriving DecidableEq, Repr

/-- What is known after some events of a signature. -/
structure Place where
  /-- The number of open structures; none are open around a member's own type. -/
  depth : Nat
  part : Part
  /-- The index of the next parameter. -/
  nextParameter : Nat
  /-- The number of array dimensions directly around the last event. -/
  dims : Nat
  /-- Whether the last event was an array dimension. -/
  afterArray : Bool
  /-- The type parameters declared so far, the last one first. -/
  declared : List String
deriving DecidableEq, Repr

namespace Place

/-- The place before the first event. -/
def start (kind : Kind) : Place where
  depth := 0
  part := if kind = .fieldKind then .field else .formalBound
  nextParameter := 0
  dims := 0
  afterArray := false
  declared := []

/-- Whether a type parameter of that name has been declared. -/
def declares (place : Place) (name : String) : Bool := place.declared.contains name

/-- The depth after an event.  A `close` without anything open leaves it at zero. -/
def depthAfter (depth : Nat) (event : Event) : Nat :=
  if event.opens then depth + 1 else if event = .close then depth - 1 else depth

/-- The place after one more event. -/
def advance (place : Place) (event : Event) : Place :=
  let dims := if place.afterArray then place.dims else 0
  let next : Place :=
    { place with
      depth := depthAfter place.depth event
      dims := if event = .arrayType then dims + 1 else dims
      afterArray := event = .arrayType }
  match event with
  | .formalParameter name =>
    { next with part := .formalBound, declared := name :: place.declared }
  | .superclass => { next with part := .superclass }
  | .interface => { next with part := .interface }
  | .parameterType =>
    { next with
      part := .parameter place.nextParameter
      nextParameter := place.nextParameter + 1 }
  | .returnType => { next with part := .returnType }
  | .exceptionType => { next with part := .exception }
  | _ => next

/-- Whether an event closes a structure that was never opened. -/
def underflows (place : Place) (event : Event) : Bool := event = .close && place.depth == 0

/-- The place after one more event of a signature, which must not close more than was opened. -/
def apply (text : String) (place : Place) (event : Event) : Except FormatError Place :=
  if place.underflows event then .error (.unbalanced text none) else .ok (place.advance event)

/-- Accepts the end of a signature where nothing is open. -/
def finish (text : String) (place : Place) : Except FormatError Unit :=
  if place.depth = 0 then .ok () else .error (.unbalanced text none)

end Place

end RecordRepair.Signature
