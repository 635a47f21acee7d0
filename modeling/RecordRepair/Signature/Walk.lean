import RecordRepair.Signature.Reader

/-! # Walks

* `walk` reads a whole signature: the events up to the end of the text, or up to the first fault
  and then the error that it amounts to.
* `Cursor` hands the items of a walk out one at a time.  An error is the last item, and a finished
  cursor stays finished.
* `declaredParameters` lists the type parameters that a signature declares.  It looks no further
  than the list of type parameters, so a fault behind that list is not seen. -/

namespace RecordRepair.Signature

/-- The error of a fault at an offset of a text. -/
def Fault.toError (text : String) (offset : Nat) : Fault → FormatError
  | unbalanced => .unbalanced text (some offset)
  | defect d => .invalidSignature text offset d

/-- The reading of a whole signature. -/
structure Walk where
  events : List Event
  error : Option FormatError
deriving DecidableEq, Repr

/-- Reads a whole signature. -/
def walk (kind : Kind) (text : String) : Walk :=
  let scan := scan kind.goals 0 text.toList
  ⟨scan.events, scan.fault.map fun f => f.2.toError text f.1⟩

namespace Walk

/-- The events of a walk in order, and then its error if it has one. -/
def items (walk : Walk) : List (Except FormatError Event) :=
  walk.events.map .ok ++ walk.error.toList.map .error

/-- All events of a walk that ends without an error. -/
def complete (walk : Walk) : Except FormatError (List Event) :=
  match walk.error with
  | some error => .error error
  | none => .ok walk.events

end Walk

/-- A walk of which some items have been handed out. -/
structure Cursor where
  text : String
  rest : List (Except FormatError Event)

namespace Cursor

/-- A cursor before the first item of a signature's walk. -/
def start (kind : Kind) (text : String) : Cursor := ⟨text, (walk kind text).items⟩

/-- Hands out the next item, if one is left. -/
def next (cursor : Cursor) : Option (Except FormatError Event) × Cursor :=
  (cursor.rest.head?, { cursor with rest := cursor.rest.tail })

/-- Hands out all items that are left. -/
def drain (cursor : Cursor) : List (Except FormatError Event) × Cursor :=
  (cursor.rest, { cursor with rest := [] })

end Cursor

/-- The type parameters that a walk declares, as far as its first event behind their list. -/
def Walk.declaredParameters (walk : Walk) : Except FormatError (List String) :=
  let parts := walk.events.span fun event => !event.endsFormals
  match parts.2, walk.error with
  | [], some error => .error error
  | _, _ => .ok (parts.1.filterMap Event.formal?)

/-- The type parameters that a signature declares, in order and with repetitions.  A field
signature declares none, well formed or not. -/
def declaredParameters : Kind → String → Except FormatError (List String)
  | .fieldKind, _ => .ok []
  | kind, text => (walk kind text).declaredParameters

end RecordRepair.Signature
