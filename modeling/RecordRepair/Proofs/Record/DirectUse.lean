import RecordRepair.Proofs.Record.Collection
import RecordRepair.Proofs.Signature.Grammar
import RecordRepair.Proofs.Signature.Uses

/-! # Where bounds come from

A bound is known only where a type variable stands for a whole type of a member, apart from array
dimensions, and the erased type there is a class with the same dimensions.

* `ShowsBound`: the text of a type and an erased type show the bound of a type variable.
* `Evidence.bounds`: the bounds that some uses of a type variable show, in order.
* `Evidence.bounds_type`: a type shows a bound itself or not at all, whatever is in its type
  arguments.
* `MethodTree.positions`: the types in the signature of a method with the erased types in its
  descriptor.  `MethodTree.bounds_eq`: no other parts show any bound.
* `bound_iff_direct_use` says which bound is known of a name after the signature of a field or of a
  method. -/

namespace RecordRepair

open Signature

variable {n e : String} {erased : FieldType} {descriptor : MethodDescriptor} {part : Part}

/-! ### Direct uses -/

/-- The text of a type in a signature, and the erased type there, show the bound of a type variable:
the text is the variable behind some array dimensions, and the erased type is a class, other than
the one that every type has, with just as many. -/
def ShowsBound (type : List Char) (erased : FieldType) (n e : String) : Prop :=
  ∃ dims, type = List.replicate dims '[' ++ ('T' :: n.toList ++ [';']) ∧
    erased = .arrays dims (.object e) ∧ e ≠ objectClass

theorem FieldType.element?_eq_some_iff {dims : Nat} {type element : FieldType} :
    type.element? dims = some element ↔ type = .arrays dims element := by
  induction dims generalizing type with
  | zero => simp [element?, arrays]
  | succ dims ih => cases type <;> simp [element?, arrays, ih]

/-- The bound that a type shows of a type variable. -/
def Signature.TypeTree.bound? (type : TypeTree) (erased : FieldType) (n : String) : Option String :=
  type.surface?.bind fun found =>
    if found.2 = n then
      ((erased.element? found.1).bind FieldType.internalName?).filter fun e => e != objectClass
    else none

theorem Signature.TypeTree.bound?_eq_some_iff {type : TypeTree} :
    type.bound? erased n = some e ↔ ShowsBound type.chars erased n e := by
  have herased : ∀ dims, (erased.element? dims).bind FieldType.internalName? = some e ↔
      erased = .arrays dims (.object e) := by
    intro dims
    rw [Option.bind_eq_some_iff]
    constructor
    · rintro ⟨element, he, hn⟩
      cases element with
      | object name =>
          cases hn
          exact FieldType.element?_eq_some_iff.1 he
      | base _ => cases hn
      | array _ => cases hn
    · intro he
      exact ⟨.object e, FieldType.element?_eq_some_iff.2 he, rfl⟩
  constructor
  · intro h
    obtain ⟨⟨dims, name⟩, hs, hb⟩ := Option.bind_eq_some_iff.1 h
    dsimp only at hb
    split at hb
    · next hn =>
        subst hn
        obtain ⟨he, hne⟩ := Option.filter_eq_some_iff.1 hb
        exact ⟨dims, surface?_eq_some_iff.1 hs, (herased dims).1 he, bne_iff_ne.1 hne⟩
    · cases hb
  · rintro ⟨dims, hs, he, hne⟩
    refine Option.bind_eq_some_iff.2 ⟨(dims, n), surface?_eq_some_iff.2 hs, ?_⟩
    rw [if_pos rfl]
    exact Option.filter_eq_some_iff.2 ⟨(herased dims).2 he, bne_iff_ne.2 hne⟩

theorem Signature.TypeTree.bound?_eq_none_iff {type : TypeTree} :
    type.bound? erased n = none ↔ ∀ e, ¬ ShowsBound type.chars erased n e := by
  rw [Option.eq_none_iff_forall_ne_some]
  exact forall_congr' fun e => not_congr TypeTree.bound?_eq_some_iff

/-! ### The bounds that uses show -/

namespace Evidence

variable {evidence : Evidence}

/-- The bound that a use shows, if it is not within a type argument. -/
def direct? (evidence : Evidence) (use : Use) : Option String :=
  if use.depth = 0 then
    (evidence.erasure? use.part use.dims).filter fun erasure => erasure != objectClass
  else none

/-- The bounds that some uses show of a type variable. -/
def bounds (evidence : Evidence) (n : String) (uses : List Use) : List String :=
  uses.filterMap fun use => if use.name = n then evidence.direct? use else none

theorem bounds_append (uses more : List Use) :
    evidence.bounds n (uses ++ more) = evidence.bounds n uses ++ evidence.bounds n more :=
  List.filterMap_append

theorem direct?_of_type?_eq_none {use : Use} (h : evidence.type? use.part = none) :
    evidence.direct? use = none := by
  rw [direct?, erasure?, h]
  split <;> rfl

theorem bounds_eq_nil {uses : List Use} (h : ∀ use ∈ uses, evidence.type? use.part = none) :
    evidence.bounds n uses = [] := by
  refine List.filterMap_eq_nil_iff.2 fun use hu => ?_
  rw [direct?_of_type?_eq_none (h use hu), ite_self]

theorem bounds_type {type : TypeTree} (h : evidence.type? part = some erased) :
    evidence.bounds n (type.uses part 0 0) = (type.bound? erased n).toList := by
  rw [TypeTree.bound?]
  cases hs : type.surface? with
  | none =>
      -- the uses that are left are in type arguments
      refine List.filterMap_eq_nil_iff.2 fun use hu => ?_
      have hdepth : ¬use.depth = 0 := (TypeTree.lt_depth_of_surface? 0 type hs hu).ne'
      rw [direct?, if_neg hdepth, ite_self]
  | some found =>
      obtain ⟨dims, name⟩ := found
      have hdirect : evidence.direct? ⟨name, part, 2 * 0, 0 + dims⟩ =
          ((erased.element? dims).bind FieldType.internalName?).filter fun e => e != objectClass := by
        rw [direct?, if_pos rfl, erasure?, h, Option.bind_some, Nat.zero_add]
      rw [TypeTree.uses_of_surface? dims 0 type hs, bounds, List.filterMap_cons, hdirect,
        Option.bind_some, List.filterMap_nil]
      dsimp only
      split
      · next hb => rw [hb, Option.toList_none]
      · next hb => rw [hb, Option.toList_some]

theorem bounds_type_eq_nil {type : TypeTree} (h : evidence.type? part = none) :
    evidence.bounds n (type.uses part 0 0) = [] := by
  refine bounds_eq_nil fun use hu => ?_
  rw [(TypeTree.mem_uses 0 0 type hu).1, h]

end Evidence

/-! ### Methods -/

namespace Signature.MethodTree

variable {tree : MethodTree}

/-- The types in the signature of a method with the erased types in a descriptor at the same places:
the parameters in order, and then the result.  What has no counterpart is left out. -/
def positions (tree : MethodTree) (descriptor : MethodDescriptor) : List (TypeTree × FieldType) :=
  tree.parameters.zip descriptor.parameters ++
    tree.result.toList.zip descriptor.result.fieldType?.toList

theorem bounds_parameters (index : Nat) (parameters : List TypeTree) :
    (Evidence.method descriptor).bounds n (TypeTree.parameterUses index parameters) =
      (parameters.zip (descriptor.parameters.drop index)).filterMap fun p => p.1.bound? p.2 n := by
  induction parameters generalizing index with
  | nil => rfl
  | cons type parameters ih =>
      have hrest := ih (index + 1)
      rw [TypeTree.parameterUses, List.zipIdx_cons, List.flatMap_cons, Evidence.bounds_append]
      rw [TypeTree.parameterUses] at hrest
      rw [hrest]
      cases hd : descriptor.parameters[index]? with
      | none =>
          -- neither this index nor any later one has a type in the descriptor
          have hlength : descriptor.parameters.length ≤ index := List.getElem?_eq_none_iff.1 hd
          have htype : (Evidence.method descriptor).type? (.parameter index) = none := hd
          rw [Evidence.bounds_type_eq_nil htype, List.drop_eq_nil_of_le hlength,
            List.drop_eq_nil_of_le (Nat.le_succ_of_le hlength)]
          simp
      | some erased =>
          have htype : (Evidence.method descriptor).type? (.parameter index) = some erased := hd
          obtain ⟨hlength, he⟩ := List.getElem?_eq_some_iff.1 hd
          rw [Evidence.bounds_type htype, List.drop_eq_getElem_cons hlength, he,
            List.zip_cons_cons, List.filterMap_cons]
          cases type.bound? erased n <;> rfl

/-- **Only whole parameters and results show bounds.**  Bounds of type parameters, exceptions and
type arguments show none. -/
theorem bounds_eq : (Evidence.method descriptor).bounds n tree.uses =
    (tree.positions descriptor).filterMap fun p => p.1.bound? p.2 n := by
  have hformals : (Evidence.method descriptor).bounds n
      (tree.formals.flatMap FormalTree.uses) = [] := by
    refine Evidence.bounds_eq_nil fun use hu => ?_
    obtain ⟨formal, -, hu⟩ := List.mem_flatMap.1 hu
    rw [TypeTree.part_of_mem_flatMap hu]
    rfl
  have hexceptions : (Evidence.method descriptor).bounds n
      (tree.exceptions.flatMap (·.uses .exception 0 0)) = [] := by
    refine Evidence.bounds_eq_nil fun use hu => ?_
    rw [TypeTree.part_of_mem_flatMap hu]
    rfl
  have hresult : (Evidence.method descriptor).bounds n
      (tree.result.elim [] (·.uses .returnType 0 0)) =
        (tree.result.toList.zip descriptor.result.fieldType?.toList).filterMap
          fun p => p.1.bound? p.2 n := by
    cases tree.result with
    | none => rfl
    | some type =>
        cases hr : descriptor.result.fieldType? with
        | none => exact Evidence.bounds_type_eq_nil hr
        | some erased =>
            have htype : (Evidence.method descriptor).type? .returnType = some erased := hr
            refine (Evidence.bounds_type htype).trans ?_
            cases hb : type.bound? erased n <;> simp [hb]
  rw [uses, Evidence.bounds_append, Evidence.bounds_append, Evidence.bounds_append, hformals,
    hexceptions, hresult, bounds_parameters, positions, List.filterMap_append, List.drop_zero,
    List.nil_append, List.append_nil]

end Signature.MethodTree

/-! ### Occurrences and uses -/

namespace Member

variable {member : Member} {tree : Tree}

theorem walk_eq_of_tree (hk : tree.kind = member.kind) (hw : tree.isWellFormed = true)
    (hc : tree.chars = member.signature.toList) :
    walk member.kind member.signature = ⟨tree.events, none⟩ := by
  rw [← hk]
  exact Tree.walk_of_chars hw hc

theorem occurrences_eq (hk : tree.kind = member.kind) (hw : tree.isWellFormed = true)
    (hc : tree.chars = member.signature.toList) :
    member.occurrences = tree.uses.filterMap fun use =>
      if use.name ∈ declaredNames member.kind member.signature then none
      else some ⟨use.name, member.evidence.direct? use⟩ := by
  have hwalk := walk_eq_of_tree hk hw hc
  have hlists : ListsFormals member.kind member.signature := Or.inr (Or.inl (by rw [hwalk]))
  have huses := tree.uses_start
  rw [hk] at huses
  rw [occurrences, if_pos hlists, hwalk, ← huses, Place.uses, List.filterMap_filterMap]
  refine List.filterMap_congr fun step _ => ?_
  have hdirect : ∀ name, member.evidence.usable? step.2 =
      member.evidence.direct? ⟨name, step.2.part, step.2.depth, step.2.dims⟩ := fun _ => rfl
  rw [occurrence?, Use.ofStep?]
  cases step.1.reference? with
  | none => rfl
  | some name =>
      rw [Option.map_some, Option.bind_some, hdirect name]
      by_cases hm : name ∈ declaredNames member.kind member.signature
      · simp [Option.filter, hm]
      · simp [Option.filter, hm]

theorem firstEvidence?_occurrences (hk : tree.kind = member.kind) (hw : tree.isWellFormed = true)
    (hc : tree.chars = member.signature.toList)
    (hn : ¬ Declares member.kind member.signature n) :
    firstEvidence? member.occurrences n = (member.evidence.bounds n tree.uses).head? := by
  rw [← mem_declaredNames_iff] at hn
  rw [firstEvidence?, ← List.head?_filterMap, occurrences_eq hk hw hc, List.filterMap_filterMap,
    Evidence.bounds]
  congr 1
  refine List.filterMap_congr fun use _ => ?_
  by_cases hu : use.name = n
  · rw [if_pos hu, if_neg (hu ▸ hn), Option.bind_some, if_pos hu]
  · rw [if_neg hu]
    split
    · rfl
    · rw [Option.bind_some, if_neg hu]

end Member

/-! ### Members -/

/-- What a fresh collector knows after an accepted signature: the names are the free type variables,
and the bound of a name that is not declared is the first one that a use shows. -/
theorem Bindings.collect_accepted (member : Member) (tree : Tree) (hk : tree.kind = member.kind)
    (hw : tree.isWellFormed = true) (hc : tree.chars = member.signature.toList) :
    ∃ bindings, empty.collect member = (bindings, .ok ()) ∧
      (∀ n, bindings.get? n = none ↔ ¬ IsFree member.kind member.signature n) ∧
      ∀ n, ¬ Declares member.kind member.signature n →
        (∀ e, bindings.get? n = some (.erased e) ↔
          (member.evidence.bounds n tree.uses).head? = some e) ∧
        (bindings.get? n = some .unresolved ↔ IsFree member.kind member.signature n ∧
          (member.evidence.bounds n tree.uses).head? = none) := by
  have herror : (walk member.kind member.signature).error = none := by
    rw [Member.walk_eq_of_tree hk hw hc]
  have hfound : (empty.collect member).1 = ofOccurrences member.occurrences :=
    collect_ofOccurrences [] member
  have hok : (empty.collect member).2 = .ok () := (collect_of_walk member herror).1
  refine ⟨ofOccurrences member.occurrences, Prod.ext hfound hok, fun n => ?_, fun n hn => ?_⟩
  · rw [get?_eq_none_iff, Member.mem_names_occurrences_iff herror]
  · rw [← Member.firstEvidence?_occurrences hk hw hc hn]
    refine ⟨fun e => get?_eq_erased_iff, ?_⟩
    rw [get?_eq_unresolved_iff, Member.mem_names_occurrences_iff herror]

/-- **A bound comes from a direct use.**  After the signature of a field, the bound of a name is
known exactly if the signature is that of the name behind some array dimensions and the field is an
array of a class with as many dimensions.  After the signature of a method, it is known of a name
that the method does not declare exactly if some parameter, or else the result, is so, and it comes
from the first place of this kind.  Of all other free type variables nothing but the name is
known. -/
theorem bound_iff_direct_use :
    (∀ (text : String) (type : FieldType), validate .fieldKind text = .ok () →
      ∃ bindings, Bindings.empty.collect ⟨text, .fieldKind, .field type⟩ = (bindings, .ok ()) ∧
        ∀ n,
          (∀ e, bindings.get? n = some (.erased e) ↔ ShowsBound text.toList type n e) ∧
          (bindings.get? n = some .unresolved ↔
            IsFree .fieldKind text n ∧ ∀ e, ¬ ShowsBound text.toList type n e) ∧
          (bindings.get? n = none ↔ ¬ IsFree .fieldKind text n)) ∧
    ∀ (text : String) (descriptor : MethodDescriptor), validate .methodKind text = .ok () →
      (∃ tree : MethodTree, tree.isWellFormed = true ∧ tree.chars = text.toList) ∧
      ∀ tree : MethodTree, tree.isWellFormed = true → tree.chars = text.toList →
        ∃ bindings,
          Bindings.empty.collect ⟨text, .methodKind, .method descriptor⟩ = (bindings, .ok ()) ∧
          ∀ n, ¬ Declares .methodKind text n →
            (∀ e, bindings.get? n = some (.erased e) ↔
              ∃ before p after, tree.positions descriptor = before ++ p :: after ∧
                ShowsBound p.1.chars p.2 n e ∧ ∀ q ∈ before, ∀ e', ¬ ShowsBound q.1.chars q.2 n e') ∧
            (bindings.get? n = some .unresolved ↔ IsFree .methodKind text n ∧
              ∀ p ∈ tree.positions descriptor, ∀ e, ¬ ShowsBound p.1.chars p.2 n e) ∧
            (bindings.get? n = none ↔ ¬ IsFree .methodKind text n) := by
  constructor
  · intro text type h
    obtain ⟨tree, hk, hw, hc⟩ := (walk_accepts_iff .fieldKind text).1.1 (validate_eq_ok_iff.1 h)
    cases tree with
    | ofClass _ => cases hk
    | ofMethod _ => cases hk
    | ofField tree =>
        obtain ⟨bindings, hcollect, hnames, hbounds⟩ :=
          Bindings.collect_accepted ⟨text, .fieldKind, .field type⟩ (.ofField tree) hk hw hc
        refine ⟨bindings, hcollect, fun n => ?_⟩
        have hdeclares : ¬ Declares .fieldKind text n := fun hd =>
          List.not_mem_nil (mem_declaredNames_iff.2 hd)
        obtain ⟨herased, hunresolved⟩ := hbounds n hdeclares
        have hbound : (Evidence.field type).bounds n (Tree.ofField tree).uses =
            (tree.bound? type n).toList := Evidence.bounds_type rfl
        have htext : tree.chars = text.toList := hc
        simp only [hbound, Option.head?_toList, TypeTree.bound?_eq_some_iff,
          TypeTree.bound?_eq_none_iff, htext] at herased hunresolved
        exact ⟨herased, hunresolved, hnames n⟩
  · intro text descriptor h
    obtain ⟨tree, hk, hw, hc⟩ := (walk_accepts_iff .methodKind text).1.1 (validate_eq_ok_iff.1 h)
    refine ⟨?_, fun tree hw hc => ?_⟩
    · cases tree with
      | ofClass _ => cases hk
      | ofField _ => cases hk
      | ofMethod tree => exact ⟨tree, hw, hc⟩
    · obtain ⟨bindings, hcollect, hnames, hbounds⟩ := Bindings.collect_accepted
        ⟨text, .methodKind, .method descriptor⟩ (.ofMethod tree) rfl hw hc
      refine ⟨bindings, hcollect, fun n hn => ?_⟩
      obtain ⟨herased, hunresolved⟩ := hbounds n hn
      have hbound : (Evidence.method descriptor).bounds n (Tree.ofMethod tree).uses = _ :=
        tree.bounds_eq
      simp only [hbound, List.head?_filterMap, List.findSome?_eq_some_iff,
        List.findSome?_eq_none_iff, TypeTree.bound?_eq_some_iff, TypeTree.bound?_eq_none_iff]
        at herased hunresolved
      exact ⟨herased, hunresolved, hnames n⟩

/-- A method with a type parameter of its own, whose other type variables stand alone, within a type
argument, in an array, for a primitive type, as a result, and as an exception. -/
def mixedMethod : MethodTree where
  formals := [⟨"X", none, [.typeVariable "U"]⟩]
  parameters := [.typeVariable "T", .ofClass "p/L" (.bounded .exact (.typeVariable "T") .nil) .nil,
    .array (.typeVariable "T"), .typeVariable "V", .typeVariable "T"]
  result := some (.typeVariable "V")
  exceptions := [.typeVariable "E"]

/-- Erased types of that method.  The one of its last parameter is missing. -/
def mixedDescriptor : MethodDescriptor where
  parameters := [.object "java/lang/Object", .object "p/L", .array (.object "p/A"), .base .int]
  result := .type (.object "p/C")

/-- The bound of `T` is that of the array. -/
theorem bound_iff_direct_use_mixedMethod :
    ∃ bindings, Bindings.empty.collect ⟨"<X::TU;>(TT;Lp/L<TT;>;[TT;TV;TT;)TV;^TE;", .methodKind,
        .method mixedDescriptor⟩ = (bindings, .ok ()) ∧
      bindings.entries = [("U", .unresolved), ("T", .erased "p/A"), ("V", .erased "p/C"),
        ("E", .unresolved)] ∧
      ∃ before p after, mixedMethod.positions mixedDescriptor = before ++ p :: after ∧
        ShowsBound p.1.chars p.2 "T" "p/A" ∧
        ∀ q ∈ before, ∀ e, ¬ ShowsBound q.1.chars q.2 "T" e := by
  obtain ⟨-, hall⟩ := bound_iff_direct_use.2 "<X::TU;>(TT;Lp/L<TT;>;[TT;TV;TT;)TV;^TE;"
    mixedDescriptor (by rfl)
  obtain ⟨bindings, hcollect, hbounds⟩ := hall mixedMethod (by rfl) (by rfl)
  have hentries : bindings = ⟨[("U", .unresolved), ("T", .erased "p/A"), ("V", .erased "p/C"),
      ("E", .unresolved)]⟩ := (congrArg Prod.fst hcollect).symm
  have hdeclares : ¬ Declares .methodKind "<X::TU;>(TT;Lp/L<TT;>;[TT;TV;TT;)TV;^TE;" "T" := by
    rintro ⟨declared, hd, hm⟩
    obtain rfl : ["X"] = declared := Except.ok.inj hd
    exact absurd hm (by decide)
  have hget : bindings.get? "T" = some (.erased "p/A") := by
    rw [hentries]
    rfl
  exact ⟨bindings, hcollect, by rw [hentries], ((hbounds "T" hdeclares).1 "p/A").1 hget⟩

end RecordRepair
