import RecordRepair.FormatError
import RecordRepair.Signature.Event

/-! # Reading signatures

A signature is read one character at a time by a stack of goals.  A goal is a part of the grammar
still to be read, or a name of which some characters have been read; the goal on top comes first.

* `step` says what the next character, or the end of the text, does to the stack: the events that
  it completes, and the goals left or the fault.  A goal that may be left out gives way to the goals
  below it, so `step` recurses on the stack and never on the text.
* `scan` feeds a text to the stack.  It stops at the first character that no continuation of the
  grammar allows, so a fault stands where it is found, counted in bytes of UTF-8. -/

namespace RecordRepair.Signature

/-- A part of a signature still to be read. -/
inductive Goal where
  /-- The list of type parameters, if there is one. -/
  | formals
  /-- The first type parameter of a list. -/
  | firstFormal
  /-- A further type parameter, or the end of the list. -/
  | moreFormals
  /-- The rest of a type parameter's name, with the part already read. -/
  | formalName (read : String)
  /-- The class bound of a type parameter, if there is one. -/
  | classBound
  /-- The interface bounds of a type parameter. -/
  | interfaceBounds
  | superclass
  | interfaces
  | parameters
  /-- A further parameter type, or the end of the parameters. -/
  | moreParameters
  | returnType
  /-- The exceptions of a method, each behind a `^`. -/
  | exceptions
  /-- The type behind a `^`. -/
  | exceptionType
  /-- A primitive type or a reference type. -/
  | javaType
  | referenceType
  /-- The rest of a type variable's name, with the part already read. -/
  | variableName (read : String)
  /-- The rest of a class name, with the part already read. -/
  | className (read : String)
  /-- The rest of an inner class's name, with the part already read. -/
  | innerName (read : String)
  /-- What follows the type arguments of a class: `;` or an inner class. -/
  | classEnd
  /-- The first type argument of a list. -/
  | firstArgument
  /-- A further type argument, or the end of the list. -/
  | moreArguments
  /-- The end of a type argument, which has no character of its own. -/
  | argumentEnd
deriving DecidableEq, Repr

/-- The parts of each kind of signature, in order. -/
def Kind.goals : Kind → List Goal
  | classKind => [.formals, .superclass, .interfaces]
  | methodKind => [.formals, .parameters, .returnType, .exceptions]
  | fieldKind => [.referenceType]

/-- What stops a reading. -/
inductive Fault where
  /-- A `>` closes a list that was never opened. -/
  | unbalanced
  | defect (defect : Defect)
deriving DecidableEq, Repr

/-- The fault of a character, or of the end of the text, where something else has to stand. -/
def Fault.unexpected (expected : Defect) : Option Char → Fault
  | none => defect .endOfText
  | some c => if c = '>' then unbalanced else defect expected

/-- What one character, or the end of the text, does: the events that it completes, and the goals
left or the fault. -/
structure Move where
  events : List Event
  next : Except Fault (List Goal)

namespace Move

/-- The character is taken and these goals are left. -/
def leave (goals : List Goal) : Move := ⟨[], .ok goals⟩

/-- The reading stops. -/
def stop (fault : Fault) : Move := ⟨[], .error fault⟩

/-- The reading stops because something else has to stand here. -/
def refuse (expected : Defect) (c : Option Char) : Move := stop (Fault.unexpected expected c)

/-- An event completed before those of a move. -/
def emit (event : Event) (move : Move) : Move := ⟨event :: move.events, move.next⟩

end Move

/-- Whether a character ends every name. -/
def endsClassName (c : Char) : Bool :=
  c == '.' || c == ';' || c == '[' || c == '<' || c == '>' || c == ':'

/-- Whether a character ends a name other than that of a class; only class names hold a `/`. -/
def endsName (c : Char) : Bool := endsClassName c || c == '/'

/-- Begins a class type. -/
def readClass (rest : List Goal) (c : Option Char) : Move :=
  if c = some 'L' then .leave (.className "" :: rest) else .refuse .classType c

/-- Begins a class type, a type variable or an array type. -/
def readReference (rest : List Goal) (c : Option Char) : Move :=
  if c = some 'L' then .leave (.className "" :: rest)
  else if c = some 'T' then .leave (.variableName "" :: rest)
  else if c = some '[' then .emit .arrayType (.leave (.javaType :: rest))
  else .refuse .referenceType c

/-- Reads a primitive type, or begins a reference type. -/
def readJava (rest : List Goal) (c : Option Char) : Move :=
  match c.bind BaseType.ofLetter? with
  | some type => .emit (.baseType type) (.leave rest)
  | none => readReference rest c

/-- Ends a class type, or begins an inner class. -/
def readClassEnd (rest : List Goal) (c : Option Char) : Move :=
  if c = some ';' then .emit .close (.leave rest)
  else if c = some '.' then .leave (.innerName "" :: rest)
  else .refuse .classEnd c

/-- Reads what follows the name of a class: its type arguments, or what ends it. -/
def readClassTail (rest : List Goal) (c : Option Char) : Move :=
  if c = some '<' then .leave (.firstArgument :: .classEnd :: rest) else readClassEnd rest c

/-- Begins a type argument. -/
def readArgument (rest : List Goal) : Option Char → Move
  | none => .refuse .referenceType none
  | some c =>
    if c = '*' then .emit .unboundedArgument (.leave (.moreArguments :: rest))
    else
      let rest := .argumentEnd :: .moreArguments :: rest
      match Wildcard.ofChar c with
      | .exact => .emit (.typeArgument .exact) (readReference rest (some c))
      | wildcard => .emit (.typeArgument wildcard) (.leave (.referenceType :: rest))

/-- Begins the name of a type parameter. -/
def readFormal (rest : List Goal) : Option Char → Move
  | none => .refuse .formalName none
  | some c =>
    if endsName c then .refuse .formalName (some c)
    else .leave (.formalName (String.singleton c) :: rest)

/-- The character that goes on with a name, if it does. -/
def continues? (ends : Char → Bool) (c : Option Char) : Option Char :=
  c.filter fun c => !ends c

/-- What the next character, or the end of the text, does to the goals. -/
def step : List Goal → Option Char → Move
  | [], none => .leave []
  | [], some c => .refuse .trailingText (some c)
  | .formals :: rest, c => if c = some '<' then .leave (.firstFormal :: rest) else step rest c
  | .firstFormal :: rest, c =>
    if c = some '>' then .stop (.defect .emptyFormals) else readFormal rest c
  | .moreFormals :: rest, c => if c = some '>' then .leave rest else readFormal rest c
  | .formalName name :: rest, c =>
    match continues? endsName c with
    | some d => .leave (.formalName (name.push d) :: rest)
    | none =>
      if c = some ':' then
        .emit (.formalParameter name)
          (.leave (.classBound :: .interfaceBounds :: .moreFormals :: rest))
      else .refuse .formalColon c
  | .classBound :: rest, c =>
    if c = some 'L' ∨ c = some 'T' ∨ c = some '[' then .emit .classBound (readReference rest c)
    else step rest c
  | .interfaceBounds :: rest, c =>
    if c = some ':' then .emit .interfaceBound (.leave (.referenceType :: .interfaceBounds :: rest))
    else step rest c
  | .superclass :: rest, c => .emit .superclass (readClass rest c)
  | .interfaces :: rest, c =>
    if c = none then step rest c else .emit .interface (readClass (.interfaces :: rest) c)
  | .parameters :: rest, c =>
    if c = some '(' then .leave (.moreParameters :: rest) else .refuse .openParameters c
  | .moreParameters :: rest, c =>
    if c = some ')' then .leave rest
    else .emit .parameterType (readJava (.moreParameters :: rest) c)
  | .returnType :: rest, c =>
    .emit .returnType (if c = some 'V' then .emit .voidType (.leave rest) else readJava rest c)
  | .exceptions :: rest, c => if c = some '^' then .leave (.exceptionType :: rest) else step rest c
  | .exceptionType :: rest, c =>
    if c = some 'L' ∨ c = some 'T' then .emit .exceptionType (readReference (.exceptions :: rest) c)
    else .refuse .exceptionType c
  | .javaType :: rest, c => readJava rest c
  | .referenceType :: rest, c => readReference rest c
  | .variableName name :: rest, c =>
    match continues? endsName c with
    | some d => .leave (.variableName (name.push d) :: rest)
    | none =>
      if name = "" then .refuse .variableName c
      else if c = some ';' then .emit (.typeVariable name) (.leave rest)
      else .refuse .variableEnd c
  | .className name :: rest, c =>
    match continues? endsClassName c with
    | some d => .leave (.className (name.push d) :: rest)
    | none =>
      if name = "" then .refuse .className c
      else .emit (.classType name) (readClassTail rest c)
  | .innerName name :: rest, c =>
    match continues? endsName c with
    | some d => .leave (.innerName (name.push d) :: rest)
    | none =>
      if name = "" then .refuse .innerName c
      else .emit .close (.emit (.innerClassType name) (readClassTail rest c))
  | .classEnd :: rest, c => readClassEnd rest c
  | .firstArgument :: rest, c =>
    if c = some '>' then .stop (.defect .emptyArguments) else readArgument rest c
  | .moreArguments :: rest, c => if c = some '>' then .leave rest else readArgument rest c
  | .argumentEnd :: rest, c => .emit .close (step rest c)

/-- What the reading of a text gives: its events, and the fault that stopped it, if one did, with
its offset. -/
structure Scan where
  events : List Event
  fault : Option (Nat × Fault)

namespace Scan

/-- Puts events before those of a scan. -/
def prepend (events : List Event) (scan : Scan) : Scan := ⟨events ++ scan.events, scan.fault⟩

end Scan

/-- Reads a text from some goals on, at an offset. -/
def scan : List Goal → Nat → List Char → Scan
  | goals, offset, [] =>
    match step goals none with
    | ⟨events, .ok _⟩ => ⟨events, none⟩
    | ⟨events, .error fault⟩ => ⟨events, some (offset, fault)⟩
  | goals, offset, c :: rest =>
    match step goals (some c) with
    | ⟨events, .ok goals⟩ => (scan goals (offset + c.utf8Size) rest).prepend events
    | ⟨events, .error fault⟩ => ⟨events, some (offset, fault)⟩

end RecordRepair.Signature
