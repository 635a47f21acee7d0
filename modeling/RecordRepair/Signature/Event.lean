import RecordRepair.Descriptor.Basic

/-! # Signatures as a stream of events

A generic signature is read from left to right as a list of events.

* `Kind` says which grammar a text follows: that of a class, a method, or a field.
* `Event` is one structural step.  `classType`, `innerClassType` and `typeArgument` open a
  structure that a later `close` closes.  The outer class is closed before its inner class is
  opened, so `Lp/Outer<TT;>.Inner;` is `classType p/Outer`, `typeArgument exact`,
  `typeVariable T`, `close`, `close`, `innerClassType Inner`, `close`. -/

namespace RecordRepair.Signature

/-- What a signature describes. -/
inductive Kind where
  /-- Type parameters, a superclass and interfaces. -/
  | classKind
  /-- Type parameters, parameters, a result and exceptions. -/
  | methodKind
  /-- The type of a field or of a record component. -/
  | fieldKind
deriving DecidableEq, Repr

/-- How a type argument bounds what it stands for. -/
inductive Wildcard where
  | exact
  | extending
  | super
deriving DecidableEq, Repr

namespace Wildcard

/-- The wildcard that a character announces; a character that is no marker begins an exact
argument. -/
def ofChar (c : Char) : Wildcard :=
  if c = '+' then extending else if c = '-' then super else exact

/-- The character written before the type of the argument. -/
def marker? : Wildcard → Option Char
  | exact => none
  | extending => some '+'
  | super => some '-'

end Wildcard

/-- One structural step of a signature. -/
inductive Event where
  | formalParameter (name : String)
  | classBound
  | interfaceBound
  | superclass
  | interface
  | parameterType
  | returnType
  | exceptionType
  | baseType (type : BaseType)
  | voidType
  | arrayType
  | classType (name : String)
  | innerClassType (name : String)
  | typeArgument (wildcard : Wildcard)
  | unboundedArgument
  | typeVariable (name : String)
  | close
deriving DecidableEq, Repr

namespace Event

/-- Whether a later `close` belongs to the event. -/
def opens : Event → Bool
  | classType _ => true
  | innerClassType _ => true
  | typeArgument _ => true
  | _ => false

/-- The name that a type variable event refers to. -/
def reference? : Event → Option String
  | typeVariable name => some name
  | _ => none

/-- The name that a type parameter event declares. -/
def formal? : Event → Option String
  | formalParameter name => some name
  | _ => none

/-- Whether the event stands after the type parameters of a class or a method. -/
def endsFormals : Event → Bool
  | superclass => true
  | parameterType => true
  | returnType => true
  | _ => false

end Event

end RecordRepair.Signature
