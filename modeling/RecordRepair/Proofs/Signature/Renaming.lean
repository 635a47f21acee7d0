import RecordRepair.Proofs.Signature.Derivation
import RecordRepair.Proofs.Signature.Rewriting
import RecordRepair.Proofs.Signature.Trails

/-! # Type variables under other names

A map of names renames the type parameters of a signature and the type variables that it refers to.
Class names stay as they are.

* `Event.rename` and `Tree.rename` rename events and trees, and the events of a renamed tree are the
  renamed events (`Tree.events_rename`).
* `IsRenaming`: a map that gives names for names, and no name that looks like a bound for one that
  does not.  Under such a map well-formed trees stay well formed (`Tree.isWellFormed_rename`).
* `exists_text_rename`: so what is accepted is accepted under other names, with the renamed events.
* `Place.along_rename`: the events of both stand at the same places. -/

namespace RecordRepair.Signature

variable {f : String → String} {kind : Kind} {text old new : String}

/-! ### Renaming -/

/-- An event with its type parameter or its type variable renamed. -/
def Event.rename (f : String → String) : Event → Event
  | formalParameter name => formalParameter (f name)
  | typeVariable name => typeVariable (f name)
  | event => event

mutual

/-- A type with its type variables renamed. -/
def TypeTree.rename (f : String → String) : TypeTree → TypeTree
  | .base type => .base type
  | .typeVariable name => .typeVariable (f name)
  | .array component => .array (component.rename f)
  | .ofClass name arguments inner => .ofClass name (arguments.rename f) (inner.rename f)

/-- Type arguments with their type variables renamed. -/
def ArgumentTrees.rename (f : String → String) : ArgumentTrees → ArgumentTrees
  | .nil => .nil
  | .unbounded rest => .unbounded (rest.rename f)
  | .bounded wildcard type rest => .bounded wildcard (type.rename f) (rest.rename f)

/-- The classes within a class with their type variables renamed. -/
def InnerTrees.rename (f : String → String) : InnerTrees → InnerTrees
  | .nil => .nil
  | .cons name arguments inner => .cons name (arguments.rename f) (inner.rename f)

end

/-- A type parameter under another name, and with the type variables of its bounds renamed. -/
def FormalTree.rename (f : String → String) (formal : FormalTree) : FormalTree where
  name := f formal.name
  classBound := formal.classBound.map (TypeTree.rename f)
  interfaceBounds := formal.interfaceBounds.map (TypeTree.rename f)

/-- The signature of a class with its type variables renamed. -/
def ClassTree.rename (f : String → String) (tree : ClassTree) : ClassTree where
  formals := tree.formals.map (FormalTree.rename f)
  superclass := tree.superclass.rename f
  interfaces := tree.interfaces.map (TypeTree.rename f)

/-- The signature of a method with its type variables renamed. -/
def MethodTree.rename (f : String → String) (tree : MethodTree) : MethodTree where
  formals := tree.formals.map (FormalTree.rename f)
  parameters := tree.parameters.map (TypeTree.rename f)
  result := tree.result.map (TypeTree.rename f)
  exceptions := tree.exceptions.map (TypeTree.rename f)

/-- A signature with its type variables renamed. -/
def Tree.rename (f : String → String) : Tree → Tree
  | ofClass tree => ofClass (tree.rename f)
  | ofMethod tree => ofMethod (tree.rename f)
  | ofField type => ofField (type.rename f)

@[simp] theorem Tree.kind_rename (tree : Tree) : (tree.rename f).kind = tree.kind := by
  cases tree <;> rfl

/-! ### Events of renamed trees -/

mutual

theorem TypeTree.events_rename :
    (type : TypeTree) → (type.rename f).events = type.events.map (Event.rename f)
  | .base _ => rfl
  | .typeVariable _ => rfl
  | .array component => congrArg (List.cons Event.arrayType) (TypeTree.events_rename component)
  | .ofClass name arguments inner => by
      have ha := ArgumentTrees.events_rename arguments
      have hi := InnerTrees.events_rename inner
      simp [TypeTree.rename, TypeTree.events, Event.rename, ha, hi]

theorem ArgumentTrees.events_rename : (arguments : ArgumentTrees) →
    (arguments.rename f).events = arguments.events.map (Event.rename f)
  | .nil => rfl
  | .unbounded rest =>
      congrArg (List.cons Event.unboundedArgument) (ArgumentTrees.events_rename rest)
  | .bounded wildcard type rest => by
      have ht := TypeTree.events_rename type
      have hr := ArgumentTrees.events_rename rest
      simp [ArgumentTrees.rename, ArgumentTrees.events, Event.rename, ht, hr]

theorem InnerTrees.events_rename :
    (inner : InnerTrees) → (inner.rename f).events = inner.events.map (Event.rename f)
  | .nil => rfl
  | .cons name arguments inner => by
      have ha := ArgumentTrees.events_rename arguments
      have hi := InnerTrees.events_rename inner
      simp [InnerTrees.rename, InnerTrees.events, Event.rename, ha, hi]

end

theorem FormalTree.events_rename (formal : FormalTree) :
    (formal.rename f).events = formal.events.map (Event.rename f) := by
  obtain ⟨name, classBound, interfaceBounds⟩ := formal
  cases classBound <;>
    simp [events, rename, Event.rename, TypeTree.events_rename, List.map_flatMap, List.flatMap_map]

theorem ClassTree.events_rename (tree : ClassTree) :
    (tree.rename f).events = tree.events.map (Event.rename f) := by
  simp [events, rename, Event.rename, FormalTree.events_rename, TypeTree.events_rename,
    List.map_flatMap, List.flatMap_map]

theorem MethodTree.events_rename (tree : MethodTree) :
    (tree.rename f).events = tree.events.map (Event.rename f) := by
  obtain ⟨formals, parameters, result, exceptions⟩ := tree
  cases result <;>
    simp [events, rename, Event.rename, FormalTree.events_rename, TypeTree.events_rename,
      List.map_flatMap, List.flatMap_map]

/-- The events of a renamed tree are the renamed events of the tree. -/
theorem Tree.events_rename (tree : Tree) :
    (tree.rename f).events = tree.events.map (Event.rename f) := by
  cases tree with
  | ofClass tree => exact tree.events_rename
  | ofMethod tree => exact tree.events_rename
  | ofField type => exact type.events_rename

/-! ### Well-formedness of renamed trees -/

/-- A map that gives names for names, and a name that looks like a bound only for one that does. -/
structure IsRenaming (f : String → String) : Prop where
  proper : ∀ {n}, isName endsName n = true → isName endsName (f n) = true
  bound : ∀ {n c}, c = 'L' ∨ c = 'T' → (f n).toList.head? = some c → n.toList.head? = some c

@[simp] theorem TypeTree.isReference_rename (type : TypeTree) :
    (type.rename f).isReference = type.isReference := by
  cases type <;> rfl

@[simp] theorem TypeTree.isClass_rename (type : TypeTree) :
    (type.rename f).isClass = type.isClass := by
  cases type <;> rfl

@[simp] theorem TypeTree.isThrowable_rename (type : TypeTree) :
    (type.rename f).isThrowable = type.isThrowable := by
  cases type <;> rfl

@[simp] theorem FormalTree.isUnbounded_rename (formal : FormalTree) :
    (formal.rename f).isUnbounded = formal.isUnbounded := by
  simp [isUnbounded, rename]

mutual

theorem TypeTree.isWellFormed_rename (hf : IsRenaming f) :
    (type : TypeTree) → type.isWellFormed = true → (type.rename f).isWellFormed = true
  | .base _, _ => rfl
  | .typeVariable _, h => hf.proper h
  | .array component, h => TypeTree.isWellFormed_rename hf component h
  | .ofClass name arguments inner, h => by
      simp only [TypeTree.isWellFormed, Bool.and_eq_true] at h
      obtain ⟨⟨hn, ha⟩, hi⟩ := h
      have ha' := ArgumentTrees.isWellFormed_rename hf arguments ha
      have hi' := InnerTrees.isWellFormed_rename hf inner hi
      simp [TypeTree.rename, TypeTree.isWellFormed, hn, ha', hi']

theorem ArgumentTrees.isWellFormed_rename (hf : IsRenaming f) :
    (arguments : ArgumentTrees) → arguments.isWellFormed = true →
      (arguments.rename f).isWellFormed = true
  | .nil, _ => rfl
  | .unbounded rest, h => ArgumentTrees.isWellFormed_rename hf rest h
  | .bounded wildcard type rest, h => by
      simp only [ArgumentTrees.isWellFormed, Bool.and_eq_true] at h
      obtain ⟨⟨href, ht⟩, hr⟩ := h
      have ht' := TypeTree.isWellFormed_rename hf type ht
      have hr' := ArgumentTrees.isWellFormed_rename hf rest hr
      simp [ArgumentTrees.rename, ArgumentTrees.isWellFormed, href, ht', hr']

theorem InnerTrees.isWellFormed_rename (hf : IsRenaming f) :
    (inner : InnerTrees) → inner.isWellFormed = true → (inner.rename f).isWellFormed = true
  | .nil, _ => rfl
  | .cons name arguments inner, h => by
      simp only [InnerTrees.isWellFormed, Bool.and_eq_true] at h
      obtain ⟨⟨hn, ha⟩, hi⟩ := h
      have ha' := ArgumentTrees.isWellFormed_rename hf arguments ha
      have hi' := InnerTrees.isWellFormed_rename hf inner hi
      simp [InnerTrees.rename, InnerTrees.isWellFormed, hn, ha', hi']

end

section

variable (hf : IsRenaming f)

include hf

/-- Types of one sort stay so, and well formed. -/
theorem TypeTree.all_rename {p : TypeTree → Bool} (hp : ∀ type, p (type.rename f) = p type)
    {types : List TypeTree} (h : (types.all fun type => p type && type.isWellFormed) = true) :
    ((types.map (rename f)).all fun type => p type && type.isWellFormed) = true := by
  simp only [List.all_eq_true, Bool.and_eq_true] at h ⊢
  intro _ hm
  obtain ⟨type, hm', rfl⟩ := List.mem_map.1 hm
  obtain ⟨ht, hw⟩ := h type hm'
  exact ⟨(hp type).trans ht, isWellFormed_rename hf type hw⟩

theorem FormalTree.isWellFormed_rename {formal : FormalTree} (h : formal.isWellFormed = true) :
    (formal.rename f).isWellFormed = true := by
  rw [isWellFormed, Bool.and_eq_true] at h ⊢
  have hbounds := TypeTree.all_rename hf TypeTree.isReference_rename h.2
  rw [List.map_append, ← Option.toList_map] at hbounds
  exact ⟨hf.proper h.1, hbounds⟩

/-- A new name is no bound, so it can follow whatever the old one could. -/
theorem FormalTree.mayFollow_rename {before formal : FormalTree}
    (h : before.mayFollow formal = true) :
    (before.rename f).mayFollow (formal.rename f) = true := by
  have hlooks : (formal.rename f).looksLikeBound = true → formal.looksLikeBound = true := by
    simp only [looksLikeBound, rename, Option.any_eq_true, Bool.or_eq_true, beq_iff_eq]
    rintro ⟨c, hm, hc⟩
    exact ⟨c, hf.bound hc hm, hc⟩
  rw [mayFollow, Bool.not_eq_true', Bool.and_eq_false_imp] at h ⊢
  rw [isUnbounded_rename]
  intro hu
  exact Bool.eq_false_iff.2 fun hl => Bool.eq_false_iff.1 (h hu) (hlooks hl)

theorem FormalTree.areWellFormed_rename :
    (formals : List FormalTree) → areWellFormed formals = true →
      areWellFormed (formals.map (rename f)) = true
  | [], _ => rfl
  | [_], h => isWellFormed_rename hf h
  | formal :: next :: rest, h => by
      simp only [areWellFormed, Bool.and_eq_true] at h
      obtain ⟨⟨hw, hm⟩, hrest⟩ := h
      have hrest' := areWellFormed_rename (next :: rest) hrest
      rw [List.map_cons] at hrest'
      rw [List.map_cons, List.map_cons, areWellFormed, isWellFormed_rename hf hw,
        mayFollow_rename hf hm, hrest']
      rfl

theorem ClassTree.isWellFormed_rename {tree : ClassTree} (h : tree.isWellFormed = true) :
    (tree.rename f).isWellFormed = true := by
  rw [isWellFormed, Bool.and_eq_true] at h ⊢
  exact ⟨FormalTree.areWellFormed_rename hf _ h.1,
    TypeTree.all_rename hf TypeTree.isClass_rename h.2⟩

theorem MethodTree.isWellFormed_rename {tree : MethodTree} (h : tree.isWellFormed = true) :
    (tree.rename f).isWellFormed = true := by
  rw [isWellFormed, Bool.and_eq_true, Bool.and_eq_true] at h ⊢
  obtain ⟨⟨hformals, htypes⟩, hexceptions⟩ := h
  have htypes' := TypeTree.all_rename (p := fun _ => true) hf (fun _ => rfl) htypes
  rw [List.map_append, ← Option.toList_map] at htypes'
  exact ⟨⟨FormalTree.areWellFormed_rename hf _ hformals, htypes'⟩,
    TypeTree.all_rename hf TypeTree.isThrowable_rename hexceptions⟩

/-- A well-formed tree stays well formed under other names. -/
theorem Tree.isWellFormed_rename {tree : Tree} (h : tree.isWellFormed = true) :
    (tree.rename f).isWellFormed = true := by
  cases tree with
  | ofClass tree => exact ClassTree.isWellFormed_rename hf h
  | ofMethod tree => exact MethodTree.isWellFormed_rename hf h
  | ofField type =>
      rw [isWellFormed, Bool.and_eq_true] at h
      rw [rename, isWellFormed, TypeTree.isReference_rename, h.1,
        TypeTree.isWellFormed_rename hf type h.2]
      rfl

/-- **What is accepted is accepted under other names.**  The renamed events are printed, and the
walk of the text gives them back. -/
theorem exists_text_rename (h : (walk kind text).error = none) :
    ∃ text', printAll ((walk kind text).events.map (Event.rename f)) = .ok text' ∧
      walk kind text' = ⟨(walk kind text).events.map (Event.rename f), none⟩ := by
  obtain ⟨tree, rfl, hw, -, he⟩ := (completes_of_walk h).exists_tree
  have hwalk := Tree.walk_eq (Tree.isWellFormed_rename hf hw)
  rw [Tree.kind_rename, Tree.events_rename, he] at hwalk
  exact ⟨_, printAll_of_completes (walk_eq_iff.1 hwalk), hwalk⟩

end

/-! ### One name for another -/

/-- The map that puts a name in the place of another one. -/
def replacing (old new : String) (name : String) : String := if name = old then new else name

/-- A name that does not look like a bound may stand in the place of another one. -/
theorem isRenaming_replacing (hn : isName endsName new = true)
    (hL : new.toList.head? ≠ some 'L') (hT : new.toList.head? ≠ some 'T') :
    IsRenaming (replacing old new) where
  proper := by
    intro n h
    rw [replacing]
    split
    · exact hn
    · exact h
  bound := by
    intro n c hc h
    rw [replacing] at h
    split at h
    · rcases hc with rfl | rfl
      · exact absurd h hL
      · exact absurd h hT
    · exact h

/-! ### Places of renamed events -/

/-- A place with the declared type parameters renamed. -/
def Place.rename (f : String → String) (place : Place) : Place :=
  { place with declared := place.declared.map f }

@[simp] theorem Event.reference?_rename (e : Event) :
    (e.rename f).reference? = e.reference?.map f := by
  cases e <;> rfl

@[simp] theorem Event.formal?_rename (e : Event) : (e.rename f).formal? = e.formal?.map f := by
  cases e <;> rfl

theorem Place.advance_rename (place : Place) (e : Event) :
    (place.rename f).advance (e.rename f) = (place.advance e).rename f := by
  cases e <;> rfl

/-- The renamed events stand at the renamed places. -/
theorem Place.along_rename (place : Place) (es : List Event) :
    (place.rename f).along (es.map (Event.rename f)) =
      (place.along es).map (Prod.map (Event.rename f) (Place.rename f)) := by
  induction es generalizing place with
  | nil => rfl
  | cons e es ih =>
      rw [List.map_cons, along, along, List.map_cons, advance_rename, ih]
      rfl

end RecordRepair.Signature
