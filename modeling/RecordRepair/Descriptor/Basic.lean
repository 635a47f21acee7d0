/-! # Erased types

A descriptor gives the erased type of a field, a parameter or a result: what is left of a generic
type once its type arguments and type variables are gone.

* `BaseType` is one of the eight primitive types, each written as one letter.
* `FieldType` is a primitive type, a class or interface named by its internal name
  (`java/lang/String`), or an array of such a type.
* `MethodDescriptor` lists the parameter types and the result, which may be `void`. -/

namespace RecordRepair

/-- The primitive types. -/
inductive BaseType where
  | byte
  | char
  | double
  | float
  | int
  | long
  | short
  | boolean
deriving DecidableEq, Repr

namespace BaseType

/-- The letter that stands for a primitive type in descriptors and signatures. -/
def letter : BaseType → Char
  | byte => 'B'
  | char => 'C'
  | double => 'D'
  | float => 'F'
  | int => 'I'
  | long => 'J'
  | short => 'S'
  | boolean => 'Z'

/-- The primitive type that a letter stands for. -/
def ofLetter? : Char → Option BaseType
  | 'B' => some byte
  | 'C' => some char
  | 'D' => some double
  | 'F' => some float
  | 'I' => some int
  | 'J' => some long
  | 'S' => some short
  | 'Z' => some boolean
  | _ => none

@[simp] theorem ofLetter?_letter (b : BaseType) : ofLetter? b.letter = some b := by
  cases b <;> rfl

theorem letter_of_ofLetter? {c : Char} {b : BaseType} (h : ofLetter? c = some b) :
    b.letter = c := by
  unfold ofLetter? at h
  split at h <;> first | cases h; rfl | cases h

end BaseType

/-- The erased type of a field, a record component or a parameter. -/
inductive FieldType where
  | base (type : BaseType)
  | object (name : String)
  | array (component : FieldType)
deriving DecidableEq, Repr

namespace FieldType

/-- The internal name of a class or interface type; primitive types and arrays have none. -/
def internalName? : FieldType → Option String
  | object name => some name
  | base _ => none
  | array _ => none

/-- Takes `n` array dimensions off a type, if it has that many. -/
def element? : FieldType → Nat → Option FieldType
  | type, 0 => some type
  | array component, n + 1 => component.element? n
  | base _, _ + 1 => none
  | object _, _ + 1 => none

/-- The number of array dimensions around the innermost type. -/
def dims : FieldType → Nat
  | array component => component.dims + 1
  | base _ => 0
  | object _ => 0

/-- The innermost type, with every array dimension taken off. -/
def core : FieldType → FieldType
  | array component => component.core
  | base type => base type
  | object name => object name

/-- The type of arrays with `n` dimensions over a type. -/
def arrays : Nat → FieldType → FieldType
  | 0, type => type
  | n + 1, type => array (arrays n type)

end FieldType

/-- What a method gives back. -/
inductive ReturnType where
  | void
  | type (type : FieldType)
deriving DecidableEq, Repr

/-- The result type of a method that gives one back. -/
def ReturnType.fieldType? : ReturnType → Option FieldType
  | void => none
  | type t => some t

/-- The erased parameter types and result of a method. -/
structure MethodDescriptor where
  parameters : List FieldType
  result : ReturnType
deriving DecidableEq, Repr

end RecordRepair
