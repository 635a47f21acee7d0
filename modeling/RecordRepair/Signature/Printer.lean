import RecordRepair.FormatError
import RecordRepair.Signature.Event

/-! # Printing signatures

A `Printer` takes events one by one and writes the text of a signature.

* The `;` of a finished class type is held back, since an inner class may follow.
* The list of type parameters is closed by the first event that must stand behind it, the
  parameter list of a method by its result.
* `Printer.write` refuses an event that cannot stand where it comes.  A refusal carries the text
  written so far, and its length as the offset.
* `printAll` prints a whole list of events. -/

namespace RecordRepair.Signature

/-- How far a list of the signature has come. -/
inductive Progress where
  | notStarted
  | inside
  | closed
deriving DecidableEq, Repr

/-- A structure that has been opened and not yet closed. -/
inductive Frame where
  /-- A class type, and whether its type arguments have begun. -/
  | classType (hasArguments : Bool)
  | argument
deriving DecidableEq, Repr

/-- A signature in the course of being written. -/
structure Printer where
  text : String
  formals : Progress
  parameters : Progress
  /-- The open structures, the innermost first. -/
  frames : List Frame
  /-- Whether the `;` of a finished class type is held back. -/
  heldBack : Bool
deriving DecidableEq, Repr

namespace Printer

/-- A printer that has written nothing. -/
def empty : Printer where
  text := ""
  formals := .notStarted
  parameters := .notStarted
  frames := []
  heldBack := false

/-- Writes text. -/
def put (printer : Printer) (text : String) : Printer :=
  { printer with text := printer.text ++ text }

/-- Opens a structure. -/
def enter (printer : Printer) (frame : Frame) : Printer :=
  { printer with frames := frame :: printer.frames }

/-- The refusal of an event after what has been written. -/
def refuse (printer : Printer) (defect : Defect) : Except FormatError α :=
  .error (.invalidSignature printer.text printer.text.utf8ByteSize defect)

/-- Writes the `;` that was held back. -/
def release (printer : Printer) : Printer :=
  if printer.heldBack then { printer.put ";" with heldBack := false } else printer

/-- Writes the `;` that was held back, unless the event is the inner class that it was held back
for. -/
def settle (printer : Printer) : Event → Printer
  | .innerClassType _ => printer
  | _ => printer.release

/-- Closes the list of type parameters if it is open. -/
def closeFormals (printer : Printer) : Printer :=
  if printer.formals = .inside then { printer.put ">" with formals := .closed } else printer

/-- Opens the list of parameters if it has not been started. -/
def openParameters (printer : Printer) : Printer :=
  if printer.parameters = .notStarted then { printer.put "(" with parameters := .inside }
  else printer

/-- Opens the type arguments of the innermost class type if they have not begun. -/
def openArguments (printer : Printer) : Except FormatError Printer :=
  match printer.frames with
  | .classType true :: _ => .ok printer
  | .classType false :: frames =>
    .ok { printer.put "<" with frames := .classType true :: frames }
  | _ => printer.refuse .argumentOutsideClass

/-- Writes the name of a new type parameter. -/
def writeFormal (printer : Printer) (name : String) : Except FormatError Printer :=
  match printer.formals with
  | .notStarted => .ok { printer.put ("<" ++ name ++ ":") with formals := .inside }
  | .inside => .ok (printer.put (name ++ ":"))
  | .closed => printer.refuse .formalAfterList

/-- Closes the innermost structure. -/
def writeClose (printer : Printer) : Except FormatError Printer :=
  match printer.frames with
  | [] => .error (.unbalanced printer.text (some printer.text.utf8ByteSize))
  | .argument :: frames => .ok { printer with frames }
  | .classType hasArguments :: frames =>
    .ok { printer.put (if hasArguments then ">" else "") with frames, heldBack := true }

/-- Writes an event before which nothing is held back, or an inner class. -/
def writeSettled (printer : Printer) : Event → Except FormatError Printer
  | .formalParameter name => printer.writeFormal name
  | .classBound => .ok printer
  | .interfaceBound => .ok (printer.put ":")
  | .superclass => .ok printer.closeFormals
  | .interface => .ok printer.closeFormals
  | .parameterType => .ok printer.closeFormals.openParameters
  | .returnType =>
    .ok { printer.closeFormals.openParameters.put ")" with parameters := .closed }
  | .exceptionType => .ok (printer.put "^")
  | .baseType type => .ok (printer.put (String.singleton type.letter))
  | .voidType => .ok (printer.put "V")
  | .arrayType => .ok (printer.put "[")
  | .classType name => .ok ((printer.put ("L" ++ name)).enter (.classType false))
  | .innerClassType name =>
    if printer.heldBack then
      .ok ({ printer.put ("." ++ name) with heldBack := false }.enter (.classType false))
    else printer.refuse .innerWithoutOuter
  | .typeArgument wildcard =>
    printer.openArguments.map fun printer =>
      (printer.put (wildcard.marker?.elim "" String.singleton)).enter .argument
  | .unboundedArgument => printer.openArguments.map fun printer => printer.put "*"
  | .typeVariable name => .ok (printer.put ("T" ++ name ++ ";"))
  | .close => printer.writeClose

/-- Writes one event. -/
def write (printer : Printer) (event : Event) : Except FormatError Printer :=
  (printer.settle event).writeSettled event

/-- Writes one event and goes on even if it is refused: a refused event changes nothing, except
that a `;` held back before it stays written. -/
def feed (printer : Printer) (event : Event) : Printer × Except FormatError Unit :=
  match printer.write event with
  | .ok next => (next, .ok ())
  | .error error => (printer.settle event, .error error)

/-- The text of a signature that is complete. -/
def finish (printer : Printer) : Except FormatError String :=
  let printer := printer.release
  if printer.frames ≠ [] then .error (.unbalanced printer.text none)
  else if printer.formals = .inside then printer.refuse .formalsNotClosed
  else if printer.parameters = .inside then printer.refuse .noReturnType
  else .ok printer.text

/-- Writes events up to the first that is refused. -/
def writeAll : Printer → List Event → Except FormatError Printer
  | printer, [] => .ok printer
  | printer, event :: events => (printer.write event).bind fun next => next.writeAll events

end Printer

/-- The text of a list of events. -/
def printAll (events : List Event) : Except FormatError String :=
  (Printer.empty.writeAll events).bind Printer.finish

end RecordRepair.Signature
