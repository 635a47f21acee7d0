import RecordRepair.Record.Bindings
import RecordRepair.Record.Failure
import RecordRepair.Signature.Printer

/-! # Signatures that declare type variables

`declare` builds the signature of a record that declares all type variables of some bindings.  The
superclass and the interfaces are written without type arguments: the superclass of a record has
none, and those of the interfaces cannot be recovered.

The events are printed and the text is read again, since the name of a class may hold characters
that cannot stand in a signature. -/

namespace RecordRepair

open Signature

/-- The events of a class type without type arguments. -/
def Signature.rawClass (name : String) : List Event := [.classType name, .close]

/-- The events of a bound: which kind it is has to be asked for, unless nothing is known of it. -/
def boundEvents (lookup : Lookup) (className typeVariable : String) :
    Bound → Except Failure (List Event)
  | .unresolved => .ok (.classBound :: rawClass objectClass)
  | .erased bound =>
    match lookup bound with
    | .error cause => .error (.registryUnavailable className typeVariable bound cause)
    | .ok none => .error (.unresolvableBound className typeVariable bound)
    | .ok (some info) =>
      .ok ((if info.isInterface then .interfaceBound else .classBound) :: rawClass bound)

/-- The events of a list of type parameters with their bounds. -/
def formalEvents (lookup : Lookup) (className : String) :
    List (String × Bound) → Except Failure (List Event)
  | [] => .ok []
  | (name, bound) :: rest => do
    let first ← boundEvents lookup className name bound
    let others ← formalEvents lookup className rest
    .ok (.formalParameter name :: first ++ others)

/-- The events of the superclass of a record and of its interfaces. -/
def supertypeEvents (interfaces : List String) : List Event :=
  .superclass :: rawClass recordBase ++
    interfaces.flatMap fun name => .interface :: rawClass name

/-- The signature of a class that declares the type variables of some bindings. -/
def declare (lookup : Lookup) (c : ClassFile) (bindings : Bindings) : Except Failure String := do
  let formals ← formalEvents lookup c.name bindings.entries
  let refuse := Failure.malformedSignature c.name .classSignature
  let text ← (printAll (formals ++ supertypeEvents c.interfaces)).mapError refuse
  (validate .classKind text).mapError refuse
  .ok text

end RecordRepair
