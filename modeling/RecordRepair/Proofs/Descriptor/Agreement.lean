import Mathlib.Data.Set.List
import RecordRepair.Proofs.Descriptor.Rendering
import RecordRepair.Proofs.Signature.Derivation
import RecordRepair.Proofs.Signature.SplicedText

/-! # Descriptors read as signatures

A type without type variables, type arguments and inner classes is written alike in a descriptor and
in a signature.  The readers of the two languages were written apart, but they agree on the texts
that both of them know.

* `FieldType.tree` and `MethodDescriptor.tree` are erased types as trees of signatures, with the
  text and with the events that one expects (`FieldType.events`, `MethodDescriptor.events`).
* `FieldType.FitsSignature`: a class name that a descriptor may have can stand in a signature.
  Together with what descriptors ask of names, this makes the tree well formed.
* `TypeTree.exists_erased` and `MethodTree.exists_erased`: a tree with no other events than these is
  the tree of an erased type.
* `ofDescriptor_iff_walk`: so a text is read as a descriptor with such names exactly if it is walked
  without other events, and then the walk lists the types that were read. -/

namespace RecordRepair

open Signature

variable {text : String}

/-- Whether an event can stand in the signature of an erased type. -/
def Signature.Event.isErased : Event → Bool
  | .parameterType => true
  | .returnType => true
  | .arrayType => true
  | .baseType _ => true
  | .voidType => true
  | .classType _ => true
  | .close => true
  | _ => false

/-! ### Types -/

namespace FieldType

variable {type : FieldType}

/-- The events of a type: one for each array dimension, and then the primitive type, or the class
and its end. -/
def events : FieldType → List Event
  | base type => [.baseType type]
  | object name => [.classType name, .close]
  | array component => .arrayType :: component.events

/-- Whether a type is a class, an interface or an array.  A field that has a signature is of such a
type. -/
def isReference : FieldType → Bool
  | base _ => false
  | object _ => true
  | array _ => true

/-- The class name in a type, if there is one, has none of the characters that end a class name in a
signature and none in a descriptor. -/
def FitsSignature : FieldType → Prop
  | base _ => True
  | object name => ∀ c ∈ ['.', '[', '<', '>', ':'], c ∉ name.toList
  | array component => component.FitsSignature

/-- A type as the tree of a signature. -/
def tree : FieldType → TypeTree
  | base type => .base type
  | object name => .raw name
  | array component => .array component.tree

@[simp] theorem tree_chars : type.tree.chars = type.render := by
  induction type with
  | base _ => rfl
  | object _ => rfl
  | array _ ih => rw [tree, TypeTree.chars, ih, render]

@[simp] theorem tree_events : type.tree.events = type.events := by
  induction type with
  | base _ => rfl
  | object _ => rfl
  | array _ ih => rw [tree, TypeTree.events, ih, events]

@[simp] theorem tree_isReference : type.tree.isReference = type.isReference := by
  cases type <;> rfl

/-- The characters that end a class name in a signature are the `;` that ends it in a descriptor,
and those that `FitsSignature` excludes. -/
theorem isName_endsClassName_iff {name : String} : isName endsClassName name = true ↔
    (object name).HasProperName ∧ (object name).FitsSignature := by
  have hends : ∀ c, endsClassName c = true ↔ c = ';' ∨ c ∈ ['.', '[', '<', '>', ':'] := by
    intro c
    simp only [endsClassName, Bool.or_eq_true, beq_iff_eq, List.mem_cons, List.not_mem_nil,
      or_false]
    tauto
  rw [isName_iff, HasProperName, FitsSignature, and_assoc]
  refine and_congr_right fun _ => ⟨fun h => ⟨fun hm => ?_, fun c hc hm => ?_⟩, ?_⟩
  · exact absurd (h ';' hm) (by decide)
  · exact absurd ((hends c).2 (Or.inr hc)) (by rw [h c hm]; decide)
  · rintro ⟨hsemicolon, h⟩ c hm
    rw [← Bool.not_eq_true, hends]
    rintro (rfl | hc)
    · exact hsemicolon hm
    · exact h c hc hm

theorem isWellFormed_tree_iff :
    type.tree.isWellFormed = true ↔ type.HasProperName ∧ type.FitsSignature := by
  induction type with
  | base _ => exact ⟨fun _ => ⟨trivial, trivial⟩, fun _ => rfl⟩
  | object name => rw [tree, TypeTree.raw_isWellFormed, isName_endsClassName_iff]
  | array _ ih => exact ih

theorem isWellFormed_tree_of_events (h : ∀ e ∈ type.events, e.HasProperName) :
    type.tree.isWellFormed = true := by
  induction type with
  | base _ => rfl
  | object name =>
      rw [tree, TypeTree.raw_isWellFormed]
      exact h (.classType name) List.mem_cons_self
  | array _ ih => exact ih fun e he => h e (List.mem_cons_of_mem _ he)

theorem isErased_of_mem_events : ∀ e ∈ type.events, e.isErased = true := by
  induction type with
  | base _ => simp [events, Event.isErased]
  | object _ => simp [events, Event.isErased]
  | array _ ih => exact List.forall_mem_cons.2 ⟨rfl, ih⟩

end FieldType

theorem Signature.TypeTree.exists_erased :
    ∀ tree : TypeTree, (∀ e ∈ tree.events, e.isErased = true) → ∃ type : FieldType, type.tree = tree
  | .base b, _ => ⟨.base b, rfl⟩
  | .typeVariable n, h => nomatch h (.typeVariable n) List.mem_cons_self
  | .array component, h => by
      obtain ⟨type, rfl⟩ := component.exists_erased fun e he => h e (List.mem_cons_of_mem _ he)
      exact ⟨.array type, rfl⟩
  | .ofClass name .nil .nil, _ => ⟨.object name, rfl⟩
  | .ofClass name .nil (.cons n _ _), h =>
      nomatch h (.innerClassType n) (by simp [events, InnerTrees.events])
  | .ofClass name (.unbounded _) _, h =>
      nomatch h .unboundedArgument (by simp [events, ArgumentTrees.events])
  | .ofClass name (.bounded w _ _) _, h =>
      nomatch h (.typeArgument w) (by simp [events, ArgumentTrees.events])

/-! ### Methods -/

namespace ReturnType

/-- The events of a result. -/
def events : ReturnType → List Event
  | void => [.voidType]
  | type t => t.events

/-- The class name in a result, if there is one, can stand in a signature. -/
def FitsSignature : ReturnType → Prop
  | void => True
  | type t => t.FitsSignature

end ReturnType

namespace MethodDescriptor

variable {method : MethodDescriptor}

/-- The events of a method: its parameters in order, and then its result. -/
def events (method : MethodDescriptor) : List Event :=
  (method.parameters.flatMap fun type => .parameterType :: type.events) ++
    .returnType :: method.result.events

/-- The class names of a method can stand in a signature. -/
def FitsSignature (method : MethodDescriptor) : Prop :=
  (∀ type ∈ method.parameters, type.FitsSignature) ∧ method.result.FitsSignature

/-- A method as the tree of a signature. -/
def tree (method : MethodDescriptor) : MethodTree where
  formals := []
  parameters := method.parameters.map FieldType.tree
  result := method.result.fieldType?.map FieldType.tree
  exceptions := []

@[simp] theorem tree_chars : method.tree.chars = method.render := by
  obtain ⟨parameters, result⟩ := method
  cases result <;>
    simp [tree, MethodTree.chars, FormalTree.listChars, render, ReturnType.render,
      ReturnType.fieldType?, List.flatMap_map]

@[simp] theorem tree_events : method.tree.events = method.events := by
  obtain ⟨parameters, result⟩ := method
  cases result <;>
    simp [tree, MethodTree.events, events, ReturnType.events, ReturnType.fieldType?,
      List.flatMap_map]

theorem isWellFormed_tree : method.tree.isWellFormed = true ↔
    (∀ type ∈ method.parameters, type.tree.isWellFormed = true) ∧
      ∀ type ∈ method.result.fieldType?, type.tree.isWellFormed = true := by
  simp [tree, MethodTree.isWellFormed, FormalTree.areWellFormed]

theorem isWellFormed_tree_iff :
    method.tree.isWellFormed = true ↔ method.HasProperNames ∧ method.FitsSignature := by
  obtain ⟨parameters, result⟩ := method
  have hresult : (∀ type ∈ result.fieldType?, type.tree.isWellFormed = true) ↔
      result.HasProperName ∧ result.FitsSignature := by
    cases result with
    | void => simp [ReturnType.fieldType?, ReturnType.HasProperName, ReturnType.FitsSignature]
    | type t => simp [ReturnType.fieldType?, ReturnType.HasProperName, ReturnType.FitsSignature,
        FieldType.isWellFormed_tree_iff]
  rw [isWellFormed_tree, hresult, HasProperNames, FitsSignature]
  simp only [FieldType.isWellFormed_tree_iff, forall₂_and]
  tauto

theorem isWellFormed_tree_of_events (h : ∀ e ∈ method.events, e.HasProperName) :
    method.tree.isWellFormed = true := by
  refine isWellFormed_tree.2 ⟨fun type hm => ?_, fun type hm => ?_⟩
  · refine FieldType.isWellFormed_tree_of_events fun e he => h e ?_
    exact List.mem_append_left _ (List.mem_flatMap.2 ⟨type, hm, List.mem_cons_of_mem _ he⟩)
  · refine FieldType.isWellFormed_tree_of_events fun e he => h e ?_
    cases hr : method.result with
    | void =>
        rw [hr] at hm
        cases hm
    | type t =>
        rw [hr] at hm
        obtain rfl := Option.some.inj hm
        refine List.mem_append_right _ (List.mem_cons_of_mem _ ?_)
        rw [hr]
        exact he

theorem isErased_of_mem_events : ∀ e ∈ method.events, e.isErased = true := by
  obtain ⟨parameters, result⟩ := method
  have hparameters : ∀ e ∈ parameters.flatMap fun type => .parameterType :: type.events,
      e.isErased = true := by
    refine List.forall_mem_flatMap.2 fun type _ => ?_
    exact List.forall_mem_cons.2 ⟨rfl, FieldType.isErased_of_mem_events⟩
  have hresult : ∀ e ∈ result.events, e.isErased = true := by
    cases result with
    | void => exact List.forall_mem_singleton.2 rfl
    | type t => exact FieldType.isErased_of_mem_events
  exact List.forall_mem_append.2 ⟨hparameters, List.forall_mem_cons.2 ⟨rfl, hresult⟩⟩

end MethodDescriptor

theorem Signature.MethodTree.exists_erased {tree : MethodTree}
    (h : ∀ e ∈ tree.events, e.isErased = true) :
    ∃ method : MethodDescriptor, method.tree = tree := by
  obtain ⟨formals, parameters, result, exceptions⟩ := tree
  simp only [MethodTree.events, List.forall_mem_append, List.forall_mem_cons,
    List.forall_mem_flatMap] at h
  obtain ⟨⟨⟨hformals, hparameters⟩, -, hresult⟩, hexceptions⟩ := h
  cases formals with
  | cons formal _ =>
      have hname := hformals formal List.mem_cons_self (.formalParameter formal.name)
        List.mem_cons_self
      cases hname
  | nil =>
      cases exceptions with
      | cons type _ => cases (hexceptions type List.mem_cons_self).1
      | nil =>
          have hrange : parameters ∈ Set.range (List.map FieldType.tree) := by
            rw [Set.range_list_map]
            exact fun type hm => type.exists_erased (hparameters type hm).2
          obtain ⟨types, rfl⟩ := hrange
          cases result with
          | none => exact ⟨⟨types, .void⟩, rfl⟩
          | some type =>
              obtain ⟨t, rfl⟩ := type.exists_erased hresult
              exact ⟨⟨types, .type t⟩, rfl⟩

/-! ### Readers -/

/-- There is only one text with the events of a well-formed tree, since the printer writes no
other. -/
theorem Signature.Tree.walk_eq_iff_chars (tree : Tree) (hw : tree.isWellFormed = true) :
    walk tree.kind text = ⟨tree.events, none⟩ ↔ tree.chars = text.toList := by
  refine ⟨fun h => ?_, Tree.walk_of_chars hw⟩
  have htext := printAll_of_completes (walk_eq_iff.1 h)
  have htree := printAll_of_completes (walk_eq_iff.1 (Tree.walk_eq hw))
  obtain rfl := Except.ok.inj (htree.symm.trans htext)
  rw [String.toList_ofList]

/-- A method descriptor whose names fit into a signature is walked as the events of the method, and
no other text is. -/
theorem MethodDescriptor.ofDescriptor_iff_walk_eq {method : MethodDescriptor} :
    ofDescriptor text = .ok method ∧ method.FitsSignature ↔
      walk .methodKind text = ⟨method.events, none⟩ := by
  have hwalk : method.tree.isWellFormed = true →
      (walk .methodKind text = ⟨method.events, none⟩ ↔ method.render = text.toList) := by
    intro hw
    have hiff : walk .methodKind text = _ ↔ _ :=
      Tree.walk_eq_iff_chars (.ofMethod method.tree) hw
    rwa [Tree.events, Tree.chars, tree_events, tree_chars] at hiff
  rw [ofDescriptor_eq_ok_iff, and_assoc, ← isWellFormed_tree_iff]
  constructor
  · rintro ⟨ht, hw⟩
    exact (hwalk hw).2 ht
  · intro h
    have hw : method.tree.isWellFormed = true := by
      refine isWellFormed_tree_of_events fun e he => ?_
      exact hasProperName_of_walk (by rw [h]; exact he)
    exact ⟨(hwalk hw).1 h, hw⟩

theorem Signature.walk_fieldKind_ne_baseType (b : BaseType) :
    walk .fieldKind text ≠ ⟨[.baseType b], none⟩ := by
  intro h
  obtain ⟨tree, hk, hw, -, he⟩ := (walk_eq_iff.1 h).exists_tree
  cases tree with
  | ofClass _ => cases hk
  | ofMethod _ => cases hk
  | ofField type =>
      cases type with
      | base _ => cases hw
      | typeVariable _ => cases he
      | array _ => cases he
      | ofClass _ _ _ => cases he

/-- A field descriptor whose name fits into a signature is walked as the events of the type, unless
it is that of a primitive type, and no other text is. -/
theorem FieldType.ofDescriptor_iff_walk_eq {type : FieldType} :
    ofDescriptor text = .ok type ∧ type.isReference = true ∧ type.FitsSignature ↔
      walk .fieldKind text = ⟨type.events, none⟩ := by
  have hwell : (Tree.ofField type.tree).isWellFormed = true ↔
      type.isReference = true ∧ type.tree.isWellFormed = true := by
    rw [Tree.isWellFormed, Bool.and_eq_true, tree_isReference]
  have hwalk : (Tree.ofField type.tree).isWellFormed = true →
      (walk .fieldKind text = ⟨type.events, none⟩ ↔ type.render = text.toList) := by
    intro hw
    have hiff : walk .fieldKind text = _ ↔ _ := Tree.walk_eq_iff_chars (.ofField type.tree) hw
    rwa [Tree.events, Tree.chars, tree_events, tree_chars] at hiff
  rw [ofDescriptor_eq_ok_iff, and_assoc, and_left_comm (b := type.isReference = true),
    ← isWellFormed_tree_iff, ← hwell]
  constructor
  · rintro ⟨ht, hw⟩
    exact (hwalk hw).2 ht
  · intro h
    have hw : (Tree.ofField type.tree).isWellFormed = true := by
      refine hwell.2 ⟨?_, ?_⟩
      · cases type with
        | base b => exact absurd h (walk_fieldKind_ne_baseType b)
        | object _ => rfl
        | array _ => rfl
      · refine isWellFormed_tree_of_events fun e he => ?_
        exact hasProperName_of_walk (by rw [h]; exact he)
    exact ⟨(hwalk hw).1 h, hw⟩

theorem MethodDescriptor.exists_walk_eq_iff :
    (∃ method : MethodDescriptor, walk .methodKind text = ⟨method.events, none⟩) ↔
      (walk .methodKind text).error = none ∧
        ∀ e ∈ (walk .methodKind text).events, e.isErased = true := by
  constructor
  · rintro ⟨method, h⟩
    rw [h]
    exact ⟨rfl, isErased_of_mem_events⟩
  · rintro ⟨herror, hall⟩
    obtain ⟨tree, hk, -, -, he⟩ := (completes_of_walk herror).exists_tree
    cases tree with
    | ofClass _ => cases hk
    | ofField _ => cases hk
    | ofMethod tree =>
        rw [← he] at hall
        obtain ⟨method, rfl⟩ := MethodTree.exists_erased hall
        have hevents : (walk .methodKind text).events = method.events := he.symm.trans tree_events
        exact ⟨method, by rw [← hevents, ← herror]⟩

theorem FieldType.exists_walk_eq_iff :
    (∃ type : FieldType, walk .fieldKind text = ⟨type.events, none⟩) ↔
      (walk .fieldKind text).error = none ∧
        ∀ e ∈ (walk .fieldKind text).events, e.isErased = true := by
  constructor
  · rintro ⟨type, h⟩
    rw [h]
    exact ⟨rfl, isErased_of_mem_events⟩
  · rintro ⟨herror, hall⟩
    obtain ⟨tree, hk, -, -, he⟩ := (completes_of_walk herror).exists_tree
    cases tree with
    | ofClass _ => cases hk
    | ofMethod _ => cases hk
    | ofField tree =>
        rw [← he] at hall
        obtain ⟨type, rfl⟩ := TypeTree.exists_erased tree hall
        have hevents : (walk .fieldKind text).events = type.events := he.symm.trans tree_events
        exact ⟨type, by rw [← hevents, ← herror]⟩

/-- **Descriptors and signatures are read alike.**  A text is read as a method descriptor whose class
names fit into a signature exactly if it is walked as the signature of a method without an error and
without any event that no erased type has.  The walk then lists the types that were read, in order.
The same is true of field descriptors and the signatures of fields, which are never those of
primitive types. -/
theorem ofDescriptor_iff_walk (text : String) :
    ((∃ method, MethodDescriptor.ofDescriptor text = .ok method ∧ method.FitsSignature) ↔
      (walk .methodKind text).error = none ∧
        ∀ e ∈ (walk .methodKind text).events, e.isErased = true) ∧
    (∀ method, MethodDescriptor.ofDescriptor text = .ok method ∧ method.FitsSignature ↔
      walk .methodKind text = ⟨method.events, none⟩) ∧
    ((∃ type, FieldType.ofDescriptor text = .ok type ∧ type.isReference = true ∧
        type.FitsSignature) ↔
      (walk .fieldKind text).error = none ∧
        ∀ e ∈ (walk .fieldKind text).events, e.isErased = true) ∧
    ∀ type, FieldType.ofDescriptor text = .ok type ∧ type.isReference = true ∧
        type.FitsSignature ↔ walk .fieldKind text = ⟨type.events, none⟩ := by
  refine ⟨?_, fun _ => MethodDescriptor.ofDescriptor_iff_walk_eq, ?_,
    fun _ => FieldType.ofDescriptor_iff_walk_eq⟩
  · rw [← MethodDescriptor.exists_walk_eq_iff]
    exact exists_congr fun _ => MethodDescriptor.ofDescriptor_iff_walk_eq
  · rw [← FieldType.exists_walk_eq_iff]
    exact exists_congr fun _ => FieldType.ofDescriptor_iff_walk_eq

-- a `.` is part of a class name in a descriptor, but begins an inner class in a signature
example : (MethodDescriptor.ofDescriptor "(Lp.A;)V").toOption = some ⟨[.object "p.A"], .void⟩ ∧
    walk .methodKind "(Lp.A;)V" = ⟨[.parameterType, .classType "p", .close, .innerClassType "A",
      .close, .returnType, .voidType], none⟩ := by
  decide +kernel

end RecordRepair
