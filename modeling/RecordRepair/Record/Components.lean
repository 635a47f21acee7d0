import RecordRepair.ClassFile.Basic

/-! # Record components from fields

Every component of a record is backed by a final instance field, so a lost list of components can
be written again from the fields.  The visibility of the fields plays no part, because tools that
shrink class files may have widened it. -/

namespace RecordRepair

namespace ClassFile

/-- The fields that back record components. -/
def componentFields (c : ClassFile) : List Field :=
  c.fields.filter fun field => field.access.isFinalInstance

end ClassFile

/-- Whether two components have the same name and descriptor. -/
def Component.sameKey (a b : Component) : Bool := a.name == b.name && a.descriptor == b.descriptor

/-- Leaves out each component that repeats the name and descriptor of an earlier one. -/
def Component.distinct : List Component → List Component
  | [] => []
  | c :: rest => c :: (distinct rest).filter fun d => !c.sameKey d

/-- The components that the fields of a class stand for, in the order of the fields. -/
def ClassFile.synthesizedComponents (c : ClassFile) : List Component :=
  Component.distinct (c.componentFields.map Component.ofField)

end RecordRepair
