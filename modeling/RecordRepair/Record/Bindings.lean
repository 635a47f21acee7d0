import RecordRepair.ClassFile.Basic
import RecordRepair.Descriptor.Basic
import RecordRepair.Signature.Trail

/-! # Free type variables and their bounds

The members of a record use type variables that the signature of the class has to declare, with
bounds that are only known from the erased types of the members.

* `Evidence` is what the descriptor of a member says about the types in its signature.
* `Bindings` lists type variables in the order of their discovery, each with its `Bound`.
* `Bindings.collect` adds the free type variables of one member.  A variable that stands for a
  whole parameter, result or field type is bounded by the erased type there; the first such bound
  is kept for good. -/

namespace RecordRepair

open Signature

/-- What is known of the bound of a type variable. -/
inductive Bound where
  /-- Nothing. -/
  | unresolved
  /-- The erased type of a place that the variable stands for. -/
  | erased (name : String)
deriving DecidableEq, Repr

/-- The bound that an erased type gives.  Every type is an object, so that much says nothing. -/
def Bound.ofErasure? : Option String → Bound
  | some name => if name = objectClass then unresolved else erased name
  | none => unresolved

/-- What else is known of a bound: nothing, once it is resolved. -/
def Bound.refine : Bound → Option String → Bound
  | erased name, _ => erased name
  | unresolved, erasure => .ofErasure? erasure

/-- The erased types of the member that a signature belongs to. -/
inductive Evidence where
  /-- A field or a record component of a type. -/
  | field (type : FieldType)
  | method (descriptor : MethodDescriptor)
  /-- Nothing is known, as for the signature of a class. -/
  | unknown
deriving DecidableEq, Repr

namespace Evidence

/-- The erased type of a part of a member. -/
def type? : Evidence → Part → Option FieldType
  | field type, .field => some type
  | method descriptor, .returnType => descriptor.result.fieldType?
  | method descriptor, .parameter index => descriptor.parameters[index]?
  | _, _ => none

/-- The class or interface that is left of the type of a part once some array dimensions are taken
off. -/
def erasure? (evidence : Evidence) (part : Part) (dims : Nat) : Option String :=
  ((evidence.type? part).bind fun type => type.element? dims).bind FieldType.internalName?

/-- The erased type that a type variable at a place stands for.  A variable within a type argument
stands for none. -/
def at? (evidence : Evidence) (place : Place) : Option String :=
  if place.depth = 0 then evidence.erasure? place.part place.dims else none

end Evidence

/-- Type variables in the order of their discovery. -/
structure Bindings where
  entries : List (String × Bound)
deriving DecidableEq, Repr

namespace Bindings

/-- No type variables. -/
def empty : Bindings := ⟨[]⟩

/-- The names of the type variables. -/
def names (bindings : Bindings) : List String := bindings.entries.map Prod.fst

/-- The bound of a type variable, if it has been discovered. -/
def get? (bindings : Bindings) (name : String) : Option Bound := bindings.entries.lookup name

/-- Adds a type variable at the end, or refines its bound where it stands. -/
def observeIn (name : String) (erasure : Option String) :
    List (String × Bound) → List (String × Bound)
  | [] => [(name, .ofErasure? erasure)]
  | (n, bound) :: rest =>
    if n = name then (n, bound.refine erasure) :: rest
    else (n, bound) :: observeIn name erasure rest

/-- Takes note of a type variable and of the erased type that it stands for, if it stands for
one. -/
def observe (bindings : Bindings) (name : String) (erasure : Option String) : Bindings :=
  ⟨observeIn name erasure bindings.entries⟩

end Bindings

/-- A signature and what is known of the member that it belongs to. -/
structure Member where
  signature : String
  kind : Kind
  evidence : Evidence
deriving DecidableEq, Repr

namespace Member

/-- The type variable that a step of a signature refers to, if the signature does not declare it.
The type parameters may be used ahead of their declaration, so all of them are given. -/
def freeVariable? (declared : List String) (step : Signature.Event × Place) : Option String :=
  step.1.reference?.filter fun name => !step.2.declares name && !declared.contains name

/-- The free type variables of a trail, each with the erased type that it stands for. -/
def observations (evidence : Evidence) (declared : List String)
    (steps : List (Signature.Event × Place)) : List (String × Option String) :=
  steps.filterMap fun step =>
    (freeVariable? declared step).map fun name => (name, evidence.at? step.2)

end Member

/-- Adds the free type variables of a member.  If the signature is refused, what came before the
fault stays; but a fault ahead of the end of the type parameters leaves everything as it was. -/
def Bindings.collect (bindings : Bindings) (member : Member) :
    Bindings × Except FormatError Unit :=
  match declaredParameters member.kind member.signature with
  | .error error => (bindings, .error error)
  | .ok declared =>
    let trail := trail member.kind member.signature
    let found := Member.observations member.evidence declared trail.steps
    (found.foldl (fun bindings o => bindings.observe o.1 o.2) bindings,
      trail.finish member.signature)

end RecordRepair
