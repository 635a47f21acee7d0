import RecordRepair.Proofs.Signature.Trails
import RecordRepair.Signature.Tree

/-! # Where type variables stand

A place is made up event by event, without a look at the tree of the signature.  At each type
variable it still says where in the tree the variable stands.

* `Use` is a reference to a type variable: the part of the signature that it belongs to, the number
  of structures around it, and the array dimensions directly before it.
* `TypeTree.uses` and `Tree.uses` read the uses off a tree.  There, what counts is the number of
  lists of type arguments around a variable, each of which stands for two structures: the class that
  it belongs to and the argument.
* `Place.uses` lists the uses that a place meets on its way along some events.
* `Place.Reaches` says which uses these are and which place comes after the events, as far as it
  bears on later uses (`Place.settled`).
* `TypeTree.reaches` follows the recursion of the trees: behind a type, a place is where it was
  before (`Place.past`).
* `Tree.uses_start` is the case of a whole signature. -/

namespace RecordRepair.Signature

variable {place next last : Place} {es fs : List Event} {found found' : List Use} {e : Event}
  {part : Part} {lists dims : Nat}

/-- A reference to a type variable. -/
structure Use where
  name : String
  part : Part
  /-- The number of structures around the variable. -/
  depth : Nat
  /-- The number of array dimensions directly before the variable. -/
  dims : Nat
deriving DecidableEq, Repr

/-- The reference at a step of a signature, if there is one. -/
def Use.ofStep? (step : Event × Place) : Option Use :=
  step.1.reference?.map fun name => ⟨name, step.2.part, step.2.depth, step.2.dims⟩

/-! ### The uses in a tree -/

mutual

/-- The uses in a type with so many lists of type arguments around it and so many array dimensions
directly before it. -/
def TypeTree.uses (part : Part) (lists dims : Nat) : TypeTree → List Use
  | .base _ => []
  | .typeVariable name => [⟨name, part, 2 * lists, dims⟩]
  | .array component => component.uses part lists (dims + 1)
  | .ofClass _ arguments inner => arguments.uses part (lists + 1) ++ inner.uses part lists

/-- The uses in type arguments. -/
def ArgumentTrees.uses (part : Part) (lists : Nat) : ArgumentTrees → List Use
  | .nil => []
  | .unbounded rest => rest.uses part lists
  | .bounded _ type rest => type.uses part lists 0 ++ rest.uses part lists

/-- The uses in the classes within a class. -/
def InnerTrees.uses (part : Part) (lists : Nat) : InnerTrees → List Use
  | .nil => []
  | .cons _ arguments inner => arguments.uses part (lists + 1) ++ inner.uses part lists

end

/-- The uses in the bounds of a type parameter. -/
def FormalTree.uses (formal : FormalTree) : List Use :=
  (formal.classBound.toList ++ formal.interfaceBounds).flatMap (·.uses .formalBound 0 0)

/-- The uses in the signature of a class. -/
def ClassTree.uses (tree : ClassTree) : List Use :=
  tree.formals.flatMap FormalTree.uses ++ tree.superclass.uses .superclass 0 0 ++
    tree.interfaces.flatMap (·.uses .interface 0 0)

/-- The uses in the parameters of a method, the first of which has a given index. -/
def TypeTree.parameterUses (index : Nat) (parameters : List TypeTree) : List Use :=
  (parameters.zipIdx index).flatMap fun p => p.1.uses (.parameter p.2) 0 0

/-- The uses in the signature of a method. -/
def MethodTree.uses (tree : MethodTree) : List Use :=
  tree.formals.flatMap FormalTree.uses ++ TypeTree.parameterUses 0 tree.parameters ++
    tree.result.elim [] (·.uses .returnType 0 0) ++
    tree.exceptions.flatMap (·.uses .exception 0 0)

/-- The uses in a signature of any kind. -/
def Tree.uses : Tree → List Use
  | ofClass tree => tree.uses
  | ofMethod tree => tree.uses
  | ofField type => type.uses .field 0 0

/-! ### The uses along events -/

namespace Place

/-- The place after some events. -/
def after (place : Place) (es : List Event) : Place := es.foldl advance place

/-- The uses at some events. -/
def uses (place : Place) (es : List Event) : List Use := (place.along es).filterMap Use.ofStep?

/-- The array dimensions that the next event has directly before it. -/
def pending (place : Place) : Nat := if place.afterArray then place.dims else 0

/-- What of a place bears on the uses that come after it. -/
def settled (place : Place) : Place := { place with dims := place.pending, declared := [] }

/-- The place behind a type that begins at a place. -/
def past (place : Place) : Place := { place with dims := 0, afterArray := false }

/-- Some events lead from one place to another, as far as this bears on later uses, and some uses
are met on the way. -/
def Reaches (place : Place) (es : List Event) (found : List Use) (next : Place) : Prop :=
  (place.after es).settled = next.settled ∧ place.uses es = found

theorem uses_cons : place.uses (e :: es) =
    (Use.ofStep? (e, place.advance e)).toList ++ (place.advance e).uses es := by
  rw [uses, along, List.filterMap_cons]
  cases Use.ofStep? (e, place.advance e) <;> rfl

theorem uses_append : place.uses (es ++ fs) = place.uses es ++ (place.after es).uses fs := by
  induction es generalizing place with
  | nil => rfl
  | cons e es ih =>
      rw [List.cons_append, uses_cons, uses_cons, ih, List.append_assoc]
      rfl

theorem ofStep?_eq_none (he : e.reference? = none) : Use.ofStep? (e, place) = none := by
  rw [Use.ofStep?, he]
  rfl

theorem settled_advance (e : Event) :
    (place.settled.advance e).settled = (place.advance e).settled := by
  -- the two places differ in dimensions that are no longer counted, and only then
  cases h : place.afterArray <;> cases e <;> simp [settled, pending, advance, h]

theorem ofStep?_settled (e : Event) :
    Use.ofStep? (e, place.settled.advance e) = Use.ofStep? (e, place.advance e) := by
  cases h : place.afterArray <;> cases e <;>
    simp [settled, pending, advance, Use.ofStep?, Event.reference?, h]

/-- Places that agree on what bears on later uses go on to do so, and meet the same uses. -/
theorem congr_of_settled (h : place.settled = next.settled) (es : List Event) :
    (place.after es).settled = (next.after es).settled ∧ place.uses es = next.uses es := by
  induction es generalizing place next with
  | nil => exact ⟨h, rfl⟩
  | cons e es ih =>
      have hadvance : (place.advance e).settled = (next.advance e).settled := by
        rw [← settled_advance, h, settled_advance]
      obtain ⟨hafter, huses⟩ := ih hadvance
      refine ⟨hafter, ?_⟩
      rw [uses_cons, uses_cons, huses, ← ofStep?_settled, h, ofStep?_settled]

theorem Reaches.append (h : place.Reaches es found next) (h' : next.Reaches fs found' last) :
    place.Reaches (es ++ fs) (found ++ found') last := by
  obtain ⟨hafter, huses⟩ := congr_of_settled h.1 fs
  refine ⟨?_, ?_⟩
  · rw [after, List.foldl_append]
    exact hafter.trans h'.1
  · rw [uses_append, h.2, huses, h'.2]

theorem Reaches.refl (place : Place) : place.Reaches [] [] place := ⟨rfl, rfl⟩

theorem Reaches.cons (he : e.reference? = none) (h : (place.advance e).Reaches es found last) :
    place.Reaches (e :: es) found last := by
  refine ⟨h.1, ?_⟩
  rw [uses_cons, ofStep?_eq_none he, h.2]
  rfl

theorem settled_of_not_afterArray (h : place.afterArray = false) :
    place.settled = place.past.settled := by
  rw [settled, pending, h]
  rfl

/-- Array dimensions before an event that is none do not count any more. -/
theorem Reaches.mark (he : e.reference? = none) (ha : (place.advance e).afterArray = false)
    (h : (place.advance e).past.Reaches es found last) : place.Reaches (e :: es) found last := by
  have hadvance : (place.advance e).Reaches [] [] (place.advance e).past :=
    ⟨settled_of_not_afterArray ha, rfl⟩
  exact .cons he (hadvance.append h)

end Place

/-! ### Types -/

mutual

/-- A type leads back to where it began, and its uses are met on the way. -/
theorem TypeTree.reaches (lists : Nat) (place : Place) (hd : place.depth = 2 * lists) :
    (type : TypeTree) →
      place.Reaches type.events (type.uses place.part lists place.pending) place.past
  | .base b => .mark rfl rfl (.refl place.past)
  | .typeVariable name => by
      refine ⟨rfl, ?_⟩
      rw [TypeTree.uses, ← hd]
      rfl
  | .array component => .cons rfl (TypeTree.reaches lists (place.advance .arrayType) hd component)
  | .ofClass name arguments inner => by
      have hopened : (place.advance (.classType name)).depth + 1 = 2 * (lists + 1) := by
        have hdepth : (place.advance (.classType name)).depth = place.depth + 1 := rfl
        omega
      have harguments := ArgumentTrees.reaches (lists + 1) (place.advance (.classType name)) hopened
        arguments
      -- the class is closed before the class within it is opened
      have hinner := InnerTrees.reaches lists place hd inner
      exact .mark rfl rfl (harguments.append (.mark rfl rfl hinner))

/-- Type arguments lead back to the class that they belong to, which is one of the two structures
that a list of them stands for. -/
theorem ArgumentTrees.reaches (lists : Nat) (place : Place) (hd : place.depth + 1 = 2 * lists) :
    (arguments : ArgumentTrees) →
      place.past.Reaches arguments.events (arguments.uses place.part lists) place.past
  | .nil => .refl place.past
  | .unbounded rest => .mark rfl rfl (ArgumentTrees.reaches lists place hd rest)
  | .bounded wildcard type rest => by
      have htype :=
        TypeTree.reaches lists (place.past.advance (.typeArgument wildcard)).past hd type
      have hrest := ArgumentTrees.reaches lists place hd rest
      exact .mark rfl rfl (htype.append (.mark rfl rfl hrest))

theorem InnerTrees.reaches (lists : Nat) (place : Place) (hd : place.depth = 2 * lists) :
    (inner : InnerTrees) →
      place.past.Reaches inner.events (inner.uses place.part lists) place.past
  | .nil => .refl place.past
  | .cons name arguments inner => by
      have hopened : (place.advance (.innerClassType name)).depth + 1 = 2 * (lists + 1) := by
        have hdepth : (place.advance (.innerClassType name)).depth = place.depth + 1 := rfl
        omega
      have harguments := ArgumentTrees.reaches (lists + 1) (place.advance (.innerClassType name))
        hopened arguments
      have hinner := InnerTrees.reaches lists place hd inner
      exact .mark rfl rfl (harguments.append (.mark rfl rfl hinner))

end

/-! ### Signatures -/

theorem TypeTree.reaches_marked (next : Place) (h : place.Reaches [e] [] next.past)
    (hd : next.depth = 0) (type : TypeTree) :
    place.Reaches (e :: type.events) (type.uses next.part 0 0) next.past :=
  h.append (TypeTree.reaches 0 next.past hd type)

theorem TypeTree.reaches_part
    (h : ∀ place : Place, place.Reaches [e] [] { place with part := part }.past)
    (hd : place.depth = 0) (types : List TypeTree) :
    ∃ next : Place, next.depth = 0 ∧
      place.past.Reaches (types.flatMap fun type => e :: type.events)
        (types.flatMap (·.uses part 0 0)) next.past := by
  induction types generalizing place with
  | nil => exact ⟨place, hd, .refl place.past⟩
  | cons type types ih =>
      have htype := TypeTree.reaches_marked { place with part := part } (h place.past) hd type
      have hturned : ({ place with part := part } : Place).depth = 0 := hd
      obtain ⟨next, hnext, hrest⟩ := ih hturned
      refine ⟨next, hnext, ?_⟩
      rw [List.flatMap_cons, List.flatMap_cons]
      exact htype.append hrest

/-- Parameters are counted from the index that is due. -/
theorem TypeTree.reaches_parameters (hd : place.depth = 0) (parameters : List TypeTree) :
    ∃ next : Place, next.depth = 0 ∧
      place.past.Reaches (parameters.flatMap fun type => .parameterType :: type.events)
        (parameterUses place.nextParameter parameters) next.past := by
  induction parameters generalizing place with
  | nil => exact ⟨place, hd, .refl place.past⟩
  | cons type parameters ih =>
      have htype := TypeTree.reaches_marked (place.advance .parameterType) (e := .parameterType)
        (⟨rfl, rfl⟩ : place.past.Reaches _ _ _) hd type
      have hcounted : (place.advance .parameterType).depth = 0 := hd
      obtain ⟨next, hnext, hrest⟩ := ih hcounted
      refine ⟨next, hnext, ?_⟩
      rw [List.flatMap_cons, parameterUses, List.zipIdx_cons, List.flatMap_cons]
      exact htype.append hrest

theorem TypeTree.reaches_interfaceBounds (hd : place.depth = 0) (bounds : List TypeTree) :
    place.past.Reaches (bounds.flatMap fun bound => .interfaceBound :: bound.events)
      (bounds.flatMap (·.uses place.part 0 0)) place.past := by
  induction bounds with
  | nil => exact .refl place.past
  | cons bound bounds ih =>
      have hbound : place.past.Reaches (.interfaceBound :: bound.events)
          (bound.uses place.part 0 0) place.past :=
        TypeTree.reaches_marked place ⟨rfl, rfl⟩ hd bound
      rw [List.flatMap_cons, List.flatMap_cons]
      exact hbound.append ih

theorem FormalTree.reaches (hd : place.depth = 0) (hp : place.part = .formalBound)
    (formal : FormalTree) : place.past.Reaches formal.events formal.uses place.past := by
  have hplace : { place with part := .formalBound }.past.settled = place.past.settled := by
    rw [← hp]
  have hname : place.past.Reaches [.formalParameter formal.name] [] place.past := ⟨hplace, rfl⟩
  have hinterfaces := TypeTree.reaches_interfaceBounds hd formal.interfaceBounds
  rw [hp] at hinterfaces
  rw [events, uses, List.flatMap_append]
  cases formal.classBound with
  | none => exact hname.append hinterfaces
  | some bound =>
      have hbound : place.past.Reaches (.classBound :: bound.events)
          (bound.uses place.part 0 0) place.past :=
        TypeTree.reaches_marked place ⟨rfl, rfl⟩ hd bound
      rw [hp] at hbound
      have hbounds := hname.append (hbound.append hinterfaces)
      simpa using hbounds

theorem FormalTree.reaches_all (hd : place.depth = 0) (hp : place.part = .formalBound)
    (formals : List FormalTree) :
    place.past.Reaches (formals.flatMap events) (formals.flatMap uses) place.past := by
  induction formals with
  | nil => exact .refl place.past
  | cons formal formals ih =>
      rw [List.flatMap_cons, List.flatMap_cons]
      exact (FormalTree.reaches hd hp formal).append ih

theorem ClassTree.uses_start (tree : ClassTree) :
    (Place.start .classKind).uses tree.events = tree.uses := by
  let start : Place := .start .classKind
  have hformals := FormalTree.reaches_all (rfl : start.depth = 0) rfl tree.formals
  have hsuperclass := TypeTree.reaches_marked { start with part := .superclass }
    (e := .superclass) (⟨rfl, rfl⟩ : start.past.Reaches _ _ _) rfl tree.superclass
  obtain ⟨next, -, hinterfaces⟩ := TypeTree.reaches_part (e := .interface)
    (fun _ => ⟨rfl, rfl⟩) (rfl : ({ start with part := .superclass } : Place).depth = 0)
    tree.interfaces
  exact ((hformals.append hsuperclass).append hinterfaces).2

theorem MethodTree.uses_start (tree : MethodTree) :
    (Place.start .methodKind).uses tree.events = tree.uses := by
  let start : Place := .start .methodKind
  have hformals := FormalTree.reaches_all (rfl : start.depth = 0) rfl tree.formals
  obtain ⟨next, hnext, hparameters⟩ :=
    TypeTree.reaches_parameters (rfl : start.depth = 0) tree.parameters
  have hresult : next.past.Reaches (.returnType :: tree.result.elim [.voidType] TypeTree.events)
      (tree.result.elim [] (·.uses .returnType 0 0)) { next with part := .returnType }.past := by
    cases tree.result with
    | none => exact ⟨rfl, rfl⟩
    | some type =>
        exact TypeTree.reaches_marked { next with part := .returnType } ⟨rfl, rfl⟩ hnext type
  have hbehind : ({ next with part := .returnType } : Place).depth = 0 := hnext
  obtain ⟨last, -, hexceptions⟩ := TypeTree.reaches_part (e := .exceptionType)
    (fun _ => ⟨rfl, rfl⟩) hbehind tree.exceptions
  exact (((hformals.append hparameters).append hresult).append hexceptions).2

/-- **Places tell where type variables stand.**  The uses along the events of a tree are those that
can be read off the tree. -/
theorem Tree.uses_start (tree : Tree) : (Place.start tree.kind).uses tree.events = tree.uses := by
  cases tree with
  | ofClass tree => exact tree.uses_start
  | ofMethod tree => exact tree.uses_start
  | ofField type => exact (TypeTree.reaches 0 (.start .fieldKind) rfl type).2

/-! ### The surface of a type -/

mutual

/-- All uses in a type belong to the part that it belongs to, and none is less deep than the
type. -/
theorem TypeTree.mem_uses {use : Use} (lists dims : Nat) : (type : TypeTree) →
    use ∈ type.uses part lists dims → use.part = part ∧ 2 * lists ≤ use.depth
  | .base _, h => by cases h
  | .typeVariable name, h => by
      obtain rfl := List.mem_singleton.1 h
      exact ⟨rfl, le_rfl⟩
  | .array component, h => TypeTree.mem_uses lists (dims + 1) component h
  | .ofClass _ arguments inner, h => by
      rcases List.mem_append.1 h with h | h
      · obtain ⟨hp, hd⟩ := ArgumentTrees.mem_uses (lists + 1) arguments h
        exact ⟨hp, by omega⟩
      · obtain ⟨hp, hd⟩ := InnerTrees.mem_uses lists inner h
        exact ⟨hp, by omega⟩

theorem ArgumentTrees.mem_uses {use : Use} (lists : Nat) : (arguments : ArgumentTrees) →
    use ∈ arguments.uses part lists → use.part = part ∧ 2 * lists ≤ use.depth
  | .nil, h => by cases h
  | .unbounded rest, h => ArgumentTrees.mem_uses lists rest h
  | .bounded _ type rest, h => by
      rcases List.mem_append.1 h with h | h
      · exact TypeTree.mem_uses lists 0 type h
      · exact ArgumentTrees.mem_uses lists rest h

theorem InnerTrees.mem_uses {use : Use} (lists : Nat) : (inner : InnerTrees) →
    use ∈ inner.uses part lists → use.part = part ∧ 2 * lists < use.depth
  | .nil, h => by cases h
  | .cons _ arguments inner, h => by
      rcases List.mem_append.1 h with h | h
      · obtain ⟨hp, hd⟩ := ArgumentTrees.mem_uses (lists + 1) arguments h
        exact ⟨hp, by omega⟩
      · exact InnerTrees.mem_uses lists inner h

end

namespace TypeTree

theorem part_of_mem_flatMap {use : Use} {types : List TypeTree}
    (h : use ∈ types.flatMap (·.uses part lists dims)) : use.part = part := by
  obtain ⟨type, -, hu⟩ := List.mem_flatMap.1 h
  exact (mem_uses lists dims type hu).1

/-- The type variable that a type is once its array dimensions are taken off, and the number of
these. -/
def surface? : TypeTree → Option (Nat × String)
  | base _ => none
  | typeVariable name => some (0, name)
  | array component => component.surface?.map fun found => (found.1 + 1, found.2)
  | ofClass _ _ _ => none

theorem surface?_eq_some_iff {name : String} : {count : Nat} → {type : TypeTree} →
    (type.surface? = some (count, name) ↔
      type.chars = List.replicate count '[' ++ ('T' :: name.toList ++ [';']))
  | count, base b => by
      cases b <;> cases count <;> simp [surface?, chars, List.replicate_succ, BaseType.letter]
  | count, typeVariable other => by
      cases count <;> simp [surface?, chars, List.replicate_succ, String.toList_inj]
  | 0, array component => by simp [surface?, chars]
  | count + 1, array component => by
      have ih : component.surface? = some (count, name) ↔ _ := surface?_eq_some_iff
      simpa [surface?, chars, List.replicate_succ] using ih
  | count, ofClass _ _ _ => by
      cases count <;> simp [surface?, chars, List.replicate_succ]

/-- A type that is a type variable has no other use. -/
theorem uses_of_surface? {name : String} (count dims : Nat) : (type : TypeTree) →
    type.surface? = some (count, name) →
      type.uses part lists dims = [⟨name, part, 2 * lists, dims + count⟩]
  | base _, h => by cases h
  | typeVariable _, h => by
      cases h
      rfl
  | array component, h => by
      obtain ⟨⟨n, other⟩, hc, he⟩ := Option.map_eq_some_iff.1 h
      cases he
      rw [uses, uses_of_surface? n (dims + 1) component hc, Nat.add_right_comm, Nat.add_assoc]
  | ofClass _ _ _, h => by cases h

/-- In a type that is no type variable all uses are in type arguments. -/
theorem lt_depth_of_surface? {use : Use} (dims : Nat) : (type : TypeTree) →
    type.surface? = none → use ∈ type.uses part lists dims → 2 * lists < use.depth
  | base _, _, h => by cases h
  | typeVariable _, hs, _ => by cases hs
  | array component, hs, h =>
      lt_depth_of_surface? (dims + 1) component (Option.map_eq_none_iff.1 hs) h
  | ofClass _ arguments inner, _, h => by
      rcases List.mem_append.1 h with h | h
      · have := (ArgumentTrees.mem_uses (lists + 1) arguments h).2
        omega
      · exact (InnerTrees.mem_uses lists inner h).2

end TypeTree

end RecordRepair.Signature
