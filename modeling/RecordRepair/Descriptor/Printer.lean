import RecordRepair.Descriptor.Basic

/-! # Printing descriptors

* `FieldType.render` and `MethodDescriptor.render` write types as descriptors.
* `FieldType.HasProperName` holds of the types whose descriptor can be read back: a class name is
  not empty, and it has no `;`, which would end it. -/

namespace RecordRepair

namespace FieldType

/-- The descriptor of a type. -/
def render : FieldType → List Char
  | base type => [type.letter]
  | object name => 'L' :: name.toList ++ [';']
  | array component => '[' :: component.render

/-- The class name in a type, if there is one, is not empty and has no `;`. -/
def HasProperName : FieldType → Prop
  | base _ => True
  | object name => name ≠ "" ∧ ';' ∉ name.toList
  | array component => component.HasProperName

end FieldType

namespace ReturnType

/-- The descriptor of a result. -/
def render : ReturnType → List Char
  | void => ['V']
  | type t => t.render

/-- The class name in a result, if there is one, is not empty and has no `;`. -/
def HasProperName : ReturnType → Prop
  | void => True
  | type t => t.HasProperName

end ReturnType

namespace MethodDescriptor

/-- The descriptor of a method. -/
def render (method : MethodDescriptor) : List Char :=
  '(' :: method.parameters.flatMap FieldType.render ++ ')' :: method.result.render

/-- No class name of the method is empty or has a `;`. -/
def HasProperNames (method : MethodDescriptor) : Prop :=
  (∀ type ∈ method.parameters, type.HasProperName) ∧ method.result.HasProperName

end MethodDescriptor

end RecordRepair
