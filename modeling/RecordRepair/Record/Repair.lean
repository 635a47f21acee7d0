import RecordRepair.Descriptor.Reader
import RecordRepair.Record.Components
import RecordRepair.Record.Declaration
import RecordRepair.Settings

/-! # Repairing records

Tools that shrink class files take away the list of a record's components and the type parameters
of its signature.  `repair` puts them back.

* Everything is worked out first (`plan`), and the class is changed only if nothing failed.
* A class that is no record is left alone.
* A new class signature is written only if a member uses a type variable that neither the member
  nor the class declares. -/

namespace RecordRepair

open Signature

/-- What a repair has changed. -/
structure Outcome where
  isRecord : Bool := false
  /-- The number of components that were put back. -/
  componentsAdded : Nat := 0
  /-- The class signature that was written. -/
  signature : Option String := none
  /-- The number of fields made private again. -/
  fieldsMadePrivate : Nat := 0
deriving DecidableEq, Repr

/-- Whether the class is as it was. -/
def Outcome.isUnchanged (outcome : Outcome) : Bool :=
  outcome.componentsAdded == 0 && outcome.signature.isNone && outcome.fieldsMadePrivate == 0

/-- The free type variables of a class's members, and the type parameters that it declares. -/
structure Survey where
  bindings : Bindings
  declared : List String
deriving DecidableEq, Repr

namespace Survey

/-- Whether some type variable is not declared by the class. -/
def needsDeclaration (survey : Survey) : Bool :=
  survey.bindings.names.any fun name => !survey.declared.contains name

/-- Collects the free type variables of a member, whose evidence comes from its descriptor.  A
member without a signature is passed over. -/
def collectMember (className : String) (site : Site) (kind : Kind)
    (evidence : Except FormatError Evidence) (signature : Option String) (bindings : Bindings) :
    Except Failure Bindings :=
  match signature with
  | none => .ok bindings
  | some signature => do
    let evidence ← evidence.mapError (.invalidDescriptor className site)
    let (bindings, result) := bindings.collect { signature, kind, evidence }
    result.mapError (.malformedSignature className site)
    .ok bindings

/-- Collects the free type variables of the class signature. -/
def collectClass (c : ClassFile) : Bindings → Except Failure Bindings :=
  collectMember c.name .classSignature .classKind (.ok .unknown) c.signature

/-- Collects the free type variables of a record component. -/
def collectComponent (c : ClassFile) (bindings : Bindings) (component : Component) :
    Except Failure Bindings :=
  collectMember c.name (.component component.name component.descriptor) .fieldKind
    ((FieldType.ofDescriptor component.descriptor).map .field) component.signature bindings

/-- Collects the free type variables of a field. -/
def collectField (c : ClassFile) (bindings : Bindings) (field : Field) :
    Except Failure Bindings :=
  collectMember c.name (.field field.name field.descriptor) .fieldKind
    ((FieldType.ofDescriptor field.descriptor).map .field) field.signature bindings

/-- Collects the free type variables of a method. -/
def collectMethod (c : ClassFile) (bindings : Bindings) (method : Method) :
    Except Failure Bindings :=
  collectMember c.name (.method method.name method.descriptor) .methodKind
    ((MethodDescriptor.ofDescriptor method.descriptor).map .method) method.signature bindings

/-- Looks through the signatures of a class: its own, and those of its components, fields and
methods in this order. -/
def ofClass (c : ClassFile) : Except Failure Survey := do
  let bindings ← collectClass c .empty
  let declared ← match c.signature with
    | some signature =>
      (declaredParameters .classKind signature).mapError
        (.malformedSignature c.name .classSignature)
    | none => .ok []
  let bindings ← (c.components.getD []).foldlM (collectComponent c) bindings
  let bindings ← c.fields.foldlM (collectField c) bindings
  let bindings ← c.methods.foldlM (collectMethod c) bindings
  .ok { bindings, declared }

end Survey

/-- The field with its visibility narrowed to its class. -/
def Field.makePrivate (field : Field) : Field :=
  { field with access := field.access.makePrivate }

/-- Whether a field backs a component and is not private already. -/
def Field.isExposed (field : Field) : Bool :=
  field.access.isFinalInstance && field.access.makePrivate != field.access

/-- The positions of the elements of a list that pass a test. -/
def positions {α : Type} (test : α → Bool) (list : List α) : List Nat :=
  (list.zipIdx.filter fun pair => test pair.1).map Prod.snd

/-- The changes that a repair makes. -/
structure Plan where
  /-- The components to be put back. -/
  components : Option (List Component)
  /-- The class signature to be written. -/
  signature : Option String
  /-- The positions of the fields to be made private. -/
  privateFields : List Nat
deriving DecidableEq, Repr

namespace Plan

/-- The components that a class lacks. -/
def missingComponents (settings : Settings) (c : ClassFile) : Option (List Component) :=
  if settings.patchComponents && !c.hasComponents then
    some c.synthesizedComponents |>.filter fun list => !list.isEmpty
  else none

/-- The class signature that has to be written. -/
def missingSignature (settings : Settings) (lookup : Lookup) (c : ClassFile) :
    Except Failure (Option String) :=
  if settings.patchSignature then do
    let survey ← Survey.ofClass c
    if survey.needsDeclaration then (declare lookup c survey.bindings).map some else .ok none
  else .ok none

/-- The positions of the fields whose visibility has to be restored.  That goes with the list of
components, so it is not done unless components are repaired. -/
def exposedFields (settings : Settings) (c : ClassFile) : List Nat :=
  if settings.patchComponents && settings.restorePrivateFields then
    positions Field.isExposed c.fields
  else []

/-- Works out the changes to a record without making them. -/
def ofRecord (settings : Settings) (lookup : Lookup) (c : ClassFile) : Except Failure Plan := do
  let signature ← missingSignature settings lookup c
  .ok {
    components := missingComponents settings c
    signature
    privateFields := exposedFields settings c }

/-- The fields of a class under a plan, which makes one after the other private. -/
def newFields (plan : Plan) (c : ClassFile) : List Field :=
  plan.privateFields.foldl (fun fields position => fields.modify position Field.makePrivate)
    c.fields

/-- The class with the changes of a plan. -/
def apply (plan : Plan) (c : ClassFile) : ClassFile :=
  { c with
    fields := plan.newFields c
    components := plan.components <|> c.components
    signature := plan.signature <|> c.signature }

/-- The changes of a plan, counted. -/
def outcome (plan : Plan) : Outcome where
  isRecord := true
  componentsAdded := (plan.components.getD []).length
  signature := plan.signature
  fieldsMadePrivate := plan.privateFields.length

end Plan

/-- Repairs a class: what was changed, and the changed class.  Nothing is changed if the repair
fails or the class is no record. -/
def repair (settings : Settings) (lookup : Lookup) (c : ClassFile) :
    Except Failure (Outcome × ClassFile) :=
  if c.isRecord then do
    let plan ← Plan.ofRecord settings lookup c
    .ok (plan.outcome, plan.apply c)
  else .ok ({}, c)

/-- The class after a repair, which is the class itself if the repair failed. -/
def afterRepair (c : ClassFile) : Except Failure (Outcome × ClassFile) → ClassFile
  | .ok (_, changed) => changed
  | .error _ => c

/-- Repairs a class several times over: the result and the class after each pass. -/
def repairTimes (settings : Settings) (lookup : Lookup) :
    Nat → ClassFile → List (Except Failure Outcome × ClassFile)
  | 0, _ => []
  | n + 1, c =>
    let result := repair settings lookup c
    let after := afterRepair c result
    (result.map Prod.fst, after) :: repairTimes settings lookup n after

end RecordRepair
