import RecordRepair.Signature.Reader

/-! # Signatures as trees

A signature that follows its grammar is the text of a tree.  The tree says at once how the signature
is written and which events it consists of.

* `TypeTree` is a type, with the type arguments of a class (`ArgumentTrees`) and the classes within
  it (`InnerTrees`).
* `ClassTree` and `MethodTree` are whole signatures, and `Tree` is a signature of any kind.
* `Tree.chars` is the text of a tree and `Tree.events` its events.
* `Tree.isWellFormed` keeps primitive types out of places where they cannot stand, and asks of names
  that they can be told apart from what follows them.  One condition is on neighbours: behind a type
  parameter without any bound, the name of the next one must not look like a bound. -/

namespace RecordRepair.Signature

mutual

/-- A type. -/
inductive TypeTree where
  | base (type : BaseType)
  | typeVariable (name : String)
  | array (component : TypeTree)
  /-- A class with its type arguments, and the class within it. -/
  | ofClass (name : String) (arguments : ArgumentTrees) (inner : InnerTrees)

/-- A list of type arguments, which is not written if it is empty. -/
inductive ArgumentTrees where
  | nil
  | unbounded (rest : ArgumentTrees)
  | bounded (wildcard : Wildcard) (type : TypeTree) (rest : ArgumentTrees)

/-- The classes within a class, from the outside to the inside. -/
inductive InnerTrees where
  | nil
  | cons (name : String) (arguments : ArgumentTrees) (inner : InnerTrees)

end

/-- A name that ends where the characters of a set do. -/
def isName (ends : Char → Bool) (name : String) : Bool :=
  name != "" && name.toList.all fun c => !ends c

theorem isName_iff {ends : Char → Bool} {name : String} :
    isName ends name = true ↔ name ≠ "" ∧ ∀ c ∈ name.toList, ends c = false := by
  simp [isName]

namespace TypeTree

/-- Whether a type is no primitive type. -/
def isReference : TypeTree → Bool
  | base _ => false
  | _ => true

/-- Whether a type is a class. -/
def isClass : TypeTree → Bool
  | ofClass _ _ _ => true
  | _ => false

/-- Whether a type is a class or a type variable. -/
def isThrowable : TypeTree → Bool
  | ofClass _ _ _ => true
  | typeVariable _ => true
  | _ => false

end TypeTree

/-! ### Text -/

mutual

/-- The text of a type. -/
def TypeTree.chars : TypeTree → List Char
  | .base type => [type.letter]
  | .typeVariable name => 'T' :: name.toList ++ [';']
  | .array component => '[' :: component.chars
  | .ofClass name arguments inner =>
    'L' :: name.toList ++ (arguments.listChars ++ (inner.chars ++ [';']))

/-- The text of type arguments without the marks around them. -/
def ArgumentTrees.chars : ArgumentTrees → List Char
  | .nil => []
  | .unbounded rest => '*' :: rest.chars
  | .bounded wildcard type rest => wildcard.marker?.toList ++ (type.chars ++ rest.chars)

/-- The text of a list of type arguments. -/
def ArgumentTrees.listChars : ArgumentTrees → List Char
  | .nil => []
  | .unbounded rest => '<' :: '*' :: rest.chars ++ ['>']
  | .bounded wildcard type rest =>
    '<' :: (wildcard.marker?.toList ++ (type.chars ++ (rest.chars ++ ['>'])))

/-- The text of the classes within a class. -/
def InnerTrees.chars : InnerTrees → List Char
  | .nil => []
  | .cons name arguments inner => '.' :: name.toList ++ (arguments.listChars ++ inner.chars)

end

/-! ### Events -/

mutual

/-- The events of a type. -/
def TypeTree.events : TypeTree → List Event
  | .base type => [.baseType type]
  | .typeVariable name => [.typeVariable name]
  | .array component => .arrayType :: component.events
  | .ofClass name arguments inner =>
    .classType name :: arguments.events ++ .close :: inner.events

/-- The events of type arguments. -/
def ArgumentTrees.events : ArgumentTrees → List Event
  | .nil => []
  | .unbounded rest => .unboundedArgument :: rest.events
  | .bounded wildcard type rest =>
    .typeArgument wildcard :: type.events ++ .close :: rest.events

/-- The events of the classes within a class. -/
def InnerTrees.events : InnerTrees → List Event
  | .nil => []
  | .cons name arguments inner =>
    .innerClassType name :: arguments.events ++ .close :: inner.events

end

/-! ### Well-formedness -/

mutual

/-- Whether names and type arguments of a type are as they have to be. -/
def TypeTree.isWellFormed : TypeTree → Bool
  | .base _ => true
  | .typeVariable name => isName endsName name
  | .array component => component.isWellFormed
  | .ofClass name arguments inner =>
    isName endsClassName name && arguments.isWellFormed && inner.isWellFormed

/-- Whether type arguments are as they have to be. -/
def ArgumentTrees.isWellFormed : ArgumentTrees → Bool
  | .nil => true
  | .unbounded rest => rest.isWellFormed
  | .bounded _ type rest => type.isReference && type.isWellFormed && rest.isWellFormed

/-- Whether the classes within a class are as they have to be. -/
def InnerTrees.isWellFormed : InnerTrees → Bool
  | .nil => true
  | .cons name arguments inner =>
    isName endsName name && arguments.isWellFormed && inner.isWellFormed

end

/-! ### Type parameters -/

/-- A type parameter with its bounds. -/
structure FormalTree where
  name : String
  classBound : Option TypeTree
  interfaceBounds : List TypeTree

namespace FormalTree

/-- The text of a type parameter. -/
def chars (formal : FormalTree) : List Char :=
  formal.name.toList ++ ':' :: (formal.classBound.elim [] TypeTree.chars ++
    formal.interfaceBounds.flatMap fun bound => ':' :: bound.chars)

/-- The events of a type parameter. -/
def events (formal : FormalTree) : List Event :=
  .formalParameter formal.name :: (formal.classBound.elim [] fun b => .classBound :: b.events) ++
    formal.interfaceBounds.flatMap fun bound => .interfaceBound :: bound.events

/-- Whether names and bounds of a type parameter are as they have to be. -/
def isWellFormed (formal : FormalTree) : Bool :=
  isName endsName formal.name &&
    (formal.classBound.toList ++ formal.interfaceBounds).all fun bound =>
      bound.isReference && bound.isWellFormed

/-- Whether a type parameter has no bound at all. -/
def isUnbounded (formal : FormalTree) : Bool :=
  formal.classBound.isNone && formal.interfaceBounds.isEmpty

/-- Whether the name of a type parameter begins like a bound. -/
def looksLikeBound (formal : FormalTree) : Bool :=
  formal.name.toList.head?.any fun c => c == 'L' || c == 'T'

/-- Whether a type parameter can be told apart from a bound of the one before it. -/
def mayFollow (before formal : FormalTree) : Bool :=
  !(before.isUnbounded && formal.looksLikeBound)

/-- The text of a list of type parameters, which is not written if it is empty. -/
def listChars : List FormalTree → List Char
  | [] => []
  | formals => '<' :: formals.flatMap chars ++ ['>']

/-- Whether a list of type parameters is as it has to be. -/
def areWellFormed : List FormalTree → Bool
  | [] => true
  | [formal] => formal.isWellFormed
  | formal :: next :: rest =>
    formal.isWellFormed && formal.mayFollow next && areWellFormed (next :: rest)

end FormalTree

/-! ### Whole signatures -/

/-- The signature of a class. -/
structure ClassTree where
  formals : List FormalTree
  superclass : TypeTree
  interfaces : List TypeTree

namespace ClassTree

/-- The text of a class signature. -/
def chars (tree : ClassTree) : List Char :=
  FormalTree.listChars tree.formals ++ (tree.superclass.chars ++
    tree.interfaces.flatMap TypeTree.chars)

/-- The events of a class signature. -/
def events (tree : ClassTree) : List Event :=
  tree.formals.flatMap FormalTree.events ++ .superclass :: tree.superclass.events ++
    tree.interfaces.flatMap fun type => .interface :: type.events

/-- Whether a class signature is as it has to be. -/
def isWellFormed (tree : ClassTree) : Bool :=
  FormalTree.areWellFormed tree.formals &&
    (tree.superclass :: tree.interfaces).all fun type => type.isClass && type.isWellFormed

end ClassTree

/-- The signature of a method; one that gives nothing back has no result. -/
structure MethodTree where
  formals : List FormalTree
  parameters : List TypeTree
  result : Option TypeTree
  exceptions : List TypeTree

namespace MethodTree

/-- The text of a method signature. -/
def chars (tree : MethodTree) : List Char :=
  FormalTree.listChars tree.formals ++ '(' :: (tree.parameters.flatMap TypeTree.chars ++
    ')' :: (tree.result.elim ['V'] TypeTree.chars ++
      tree.exceptions.flatMap fun type => '^' :: type.chars))

/-- The events of a method signature. -/
def events (tree : MethodTree) : List Event :=
  tree.formals.flatMap FormalTree.events ++
    (tree.parameters.flatMap fun type => .parameterType :: type.events) ++
    .returnType :: tree.result.elim [.voidType] TypeTree.events ++
    tree.exceptions.flatMap fun type => .exceptionType :: type.events

/-- Whether a method signature is as it has to be. -/
def isWellFormed (tree : MethodTree) : Bool :=
  FormalTree.areWellFormed tree.formals &&
    (tree.parameters ++ tree.result.toList).all TypeTree.isWellFormed &&
    tree.exceptions.all fun type => type.isThrowable && type.isWellFormed

end MethodTree

/-- A signature of any kind. -/
inductive Tree where
  | ofClass (tree : ClassTree)
  | ofMethod (tree : MethodTree)
  | ofField (type : TypeTree)

namespace Tree

/-- What the signature describes. -/
def kind : Tree → Kind
  | ofClass _ => .classKind
  | ofMethod _ => .methodKind
  | ofField _ => .fieldKind

/-- The text of a signature. -/
def chars : Tree → List Char
  | ofClass tree => tree.chars
  | ofMethod tree => tree.chars
  | ofField type => type.chars

/-- The events of a signature. -/
def events : Tree → List Event
  | ofClass tree => tree.events
  | ofMethod tree => tree.events
  | ofField type => type.events

/-- Whether a signature is as it has to be. -/
def isWellFormed : Tree → Bool
  | ofClass tree => tree.isWellFormed
  | ofMethod tree => tree.isWellFormed
  | ofField type => type.isReference && type.isWellFormed

/-- A text is a signature of a kind if it is the text of a well-formed tree of that kind. -/
def Writes (kind : Kind) (s : List Char) : Prop :=
  ∃ tree : Tree, tree.kind = kind ∧ tree.isWellFormed = true ∧ tree.chars = s

end Tree

end RecordRepair.Signature
