import RecordRepair.Proofs.Record.Bindings
import RecordRepair.Record.Repair

/-! # What a survey finds

A survey looks through the signatures of a class in a fixed order and stops at the first that it
cannot read.

* `ClassFile.members` lists the parts of a class that may have a signature, the class itself apart.
* `Signed.collect_eq_ok_iff` and `Signed.foldlM_collect_spec`: what one part adds, and what all add.
* `Survey.ofClass_spec`: a survey that succeeds has read every signature, and the names of its
  bindings are the free type variables.
* `Survey.exists_ofClass`: a survey succeeds if every signature can be read.
* `Survey.isPlain`: what a survey discovers has proper names and plain bounds. -/

namespace RecordRepair

open Signature

variable {n : String}

/-! ### The parts of a class -/

/-- A part of a class that may have a signature, and what its descriptor says about it. -/
structure Signed where
  site : Site
  kind : Kind
  evidence : Except FormatError Evidence
  signature : Option String

namespace Signed

/-- A record component. -/
def ofComponent (component : Component) : Signed where
  site := .component component.name component.descriptor
  kind := .fieldKind
  evidence := (FieldType.ofDescriptor component.descriptor).map .field
  signature := component.signature

/-- A field. -/
def ofField (field : Field) : Signed where
  site := .field field.name field.descriptor
  kind := .fieldKind
  evidence := (FieldType.ofDescriptor field.descriptor).map .field
  signature := field.signature

/-- A method. -/
def ofMethod (method : Method) : Signed where
  site := .method method.name method.descriptor
  kind := .methodKind
  evidence := (MethodDescriptor.ofDescriptor method.descriptor).map .method
  signature := method.signature

/-- A class, of which nothing is known. -/
def ofClass (c : ClassFile) : Signed where
  site := .classSignature
  kind := .classKind
  evidence := .ok .unknown
  signature := c.signature

/-- Collects the free type variables of a part. -/
def collect (className : String) (bindings : Bindings) (part : Signed) : Except Failure Bindings :=
  Survey.collectMember className part.site part.kind part.evidence part.signature bindings

/-- The signature of a part, if it has one, can be read and its descriptor too. -/
def IsReadable (part : Signed) : Prop :=
  ∀ signature, part.signature = some signature →
    (∃ evidence, part.evidence = .ok evidence) ∧ (walk part.kind signature).error = none

/-- A part refers to a type variable that it does not declare. -/
def IsFree (part : Signed) (name : String) : Prop :=
  ∃ signature, part.signature = some signature ∧ Signature.IsFree part.kind signature name

variable {part : Signed} {className : String} {bindings after : Bindings}

/-- What a part with a signature adds: first its descriptor is read, then its signature. -/
theorem collect_of_signature {signature : String} (hs : part.signature = some signature) :
    part.collect className bindings =
      match part.evidence with
      | .error error => .error (.invalidDescriptor className part.site error)
      | .ok evidence =>
        match (bindings.collect ⟨signature, part.kind, evidence⟩).2 with
        | .error error => .error (.malformedSignature className part.site error)
        | .ok () => .ok (bindings.collect ⟨signature, part.kind, evidence⟩).1 := by
  simp only [collect, Survey.collectMember, hs]
  cases he : part.evidence with
  | error error => rfl
  | ok evidence =>
      cases hc : (bindings.collect ⟨signature, part.kind, evidence⟩).2 with
      | error error => simp [Except.mapError, bind, Except.bind, hc]
      | ok _ => simp [Except.mapError, bind, Except.bind, hc]

theorem collect_eq_ok_iff : part.collect className bindings = .ok after ↔
    (part.signature = none ∧ after = bindings) ∨ ∃ signature evidence,
      part.signature = some signature ∧ part.evidence = .ok evidence ∧
        (walk part.kind signature).error = none ∧
        after = (bindings.collect ⟨signature, part.kind, evidence⟩).1 := by
  cases hs : part.signature with
  | none => simp [collect, Survey.collectMember, hs, eq_comm]
  | some signature =>
      rw [collect_of_signature hs]
      cases he : part.evidence with
      | error error => simp
      | ok evidence =>
          simp only [reduceCtorEq, false_and, false_or, Option.some.injEq, Except.ok.injEq]
          cases hc : (bindings.collect ⟨signature, part.kind, evidence⟩).2 with
          | error error =>
              constructor
              · intro h
                cases h
              · rintro ⟨_, _, rfl, rfl, hw, -⟩
                rw [(Bindings.collect_of_walk _ hw).1] at hc
                cases hc
          | ok _ =>
              have hw := Bindings.walk_of_collect hc
              constructor
              · intro h
                exact ⟨signature, evidence, rfl, rfl, hw, (Except.ok.inj h).symm⟩
              · rintro ⟨_, _, rfl, rfl, -, rfl⟩
                rfl

theorem collect_spec (h : part.collect className bindings = .ok after) :
    part.IsReadable ∧ ∀ n, n ∈ after.names ↔ n ∈ bindings.names ∨ part.IsFree n := by
  rcases collect_eq_ok_iff.1 h with ⟨hs, rfl⟩ | ⟨signature, evidence, hs, he, hw, rfl⟩
  · exact ⟨by simp [IsReadable, hs], by simp [IsFree, hs]⟩
  · refine ⟨?_, fun n => ?_⟩
    · intro s hs'
      obtain rfl := Option.some.inj (hs.symm.trans hs')
      exact ⟨⟨evidence, he⟩, hw⟩
    · rw [(Bindings.collect_of_walk ⟨signature, part.kind, evidence⟩ hw).2 n]
      simp [IsFree, hs]

theorem exists_collect (className : String) (bindings : Bindings) (h : part.IsReadable) :
    ∃ after, part.collect className bindings = .ok after := by
  cases hs : part.signature with
  | none => exact ⟨bindings, collect_eq_ok_iff.2 (Or.inl ⟨hs, rfl⟩)⟩
  | some signature =>
      obtain ⟨⟨evidence, he⟩, hw⟩ := h signature hs
      exact ⟨_, collect_eq_ok_iff.2 (Or.inr ⟨signature, evidence, hs, he, hw, rfl⟩)⟩

theorem foldlM_collect_spec {parts : List Signed}
    (h : parts.foldlM (collect className) bindings = .ok after) :
    (∀ p ∈ parts, p.IsReadable) ∧
      ∀ n, n ∈ after.names ↔ n ∈ bindings.names ∨ ∃ p ∈ parts, p.IsFree n := by
  induction parts generalizing bindings with
  | nil =>
      cases h
      exact ⟨List.forall_mem_nil _, by simp⟩
  | cons p parts ih =>
      rw [List.foldlM_cons] at h
      obtain ⟨next, hp, h⟩ := exists_of_bind_eq_ok h
      obtain ⟨hread, hnames⟩ := collect_spec hp
      obtain ⟨hreads, hall⟩ := ih h
      refine ⟨List.forall_mem_cons.2 ⟨hread, hreads⟩, fun n => ?_⟩
      rw [hall, hnames]
      simp [or_assoc]

theorem exists_foldlM_collect (className : String) (bindings : Bindings) {parts : List Signed}
    (h : ∀ p ∈ parts, p.IsReadable) :
    ∃ after, parts.foldlM (collect className) bindings = .ok after := by
  induction parts generalizing bindings with
  | nil => exact ⟨bindings, rfl⟩
  | cons p parts ih =>
      obtain ⟨hp, hps⟩ := List.forall_mem_cons.1 h
      obtain ⟨next, hn⟩ := exists_collect className bindings hp
      obtain ⟨after, ha⟩ := ih next hps
      exact ⟨after, by rw [List.foldlM_cons, hn]; exact ha⟩

/-- The class names in the descriptor of a part are not empty and have no `;`. -/
def HasProperEvidence (part : Signed) : Prop :=
  ∀ evidence, part.evidence = .ok evidence → evidence.HasProperNames

theorem collect_isPlain (hp : part.HasProperEvidence)
    (hb : bindings.HasProperNames ∧ bindings.HasPlainBounds)
    (h : part.collect className bindings = .ok after) :
    after.HasProperNames ∧ after.HasPlainBounds := by
  rcases collect_eq_ok_iff.1 h with ⟨-, rfl⟩ | ⟨signature, evidence, -, he, -, rfl⟩
  · exact hb
  · exact ⟨hb.1.collect _, hb.2.collect (hp evidence he)⟩

theorem foldlM_collect_isPlain {parts : List Signed} (hp : ∀ p ∈ parts, p.HasProperEvidence)
    (hb : bindings.HasProperNames ∧ bindings.HasPlainBounds)
    (h : parts.foldlM (collect className) bindings = .ok after) :
    after.HasProperNames ∧ after.HasPlainBounds := by
  induction parts generalizing bindings with
  | nil =>
      cases h
      exact hb
  | cons p parts ih =>
      obtain ⟨hpp, hps⟩ := List.forall_mem_cons.1 hp
      rw [List.foldlM_cons] at h
      obtain ⟨next, hc, h⟩ := exists_of_bind_eq_ok h
      exact ih hps (collect_isPlain hpp hb hc) h

end Signed

namespace ClassFile

/-- The components, fields and methods of a class. -/
def members (c : ClassFile) : List Signed :=
  (c.components.getD []).map Signed.ofComponent ++ c.fields.map Signed.ofField ++
    c.methods.map Signed.ofMethod

theorem members_hasProperEvidence (c : ClassFile) : ∀ p ∈ c.members, p.HasProperEvidence := by
  have hfield : ∀ {descriptor : String} {evidence : Evidence},
      (FieldType.ofDescriptor descriptor).map .field = .ok evidence →
        evidence.HasProperNames := by
    intro descriptor evidence he
    cases hd : FieldType.ofDescriptor descriptor with
    | error error =>
        rw [hd] at he
        cases he
    | ok type =>
        rw [hd] at he
        cases he
        exact FieldType.hasProperName_of_ofDescriptor hd
  intro p hp
  rw [members, List.mem_append, List.mem_append] at hp
  rcases hp with (hp | hp) | hp
  · obtain ⟨component, -, rfl⟩ := List.mem_map.1 hp
    exact fun _ he => hfield he
  · obtain ⟨field, -, rfl⟩ := List.mem_map.1 hp
    exact fun _ he => hfield he
  · obtain ⟨method, -, rfl⟩ := List.mem_map.1 hp
    intro evidence he
    cases hd : MethodDescriptor.ofDescriptor method.descriptor with
    | error error =>
        rw [Signed.ofMethod, hd] at he
        cases he
    | ok descriptor =>
        rw [Signed.ofMethod, hd] at he
        cases he
        exact MethodDescriptor.hasProperNames_of_ofDescriptor hd

end ClassFile

/-! ### Surveys -/

/-- The type parameters that a class declares, if its signature is accepted. -/
def declaredBy (signature : Option String) : List String :=
  signature.elim [] fun text => (walk .classKind text).events.filterMap Event.formal?

namespace Survey

variable {c : ClassFile} {survey : Survey}

/-- Lists the type parameters that a class declares. -/
def declaredOf (c : ClassFile) : Except Failure (List String) :=
  match c.signature with
  | some signature =>
    (declaredParameters .classKind signature).mapError
      (.malformedSignature c.name .classSignature)
  | none => .ok []

theorem ofClass_eq : ofClass c = (do
    let bindings ← (Signed.ofClass c).collect c.name .empty
    let declared ← declaredOf c
    let bindings ← c.members.foldlM (Signed.collect c.name) bindings
    .ok { bindings, declared }) := by
  simp only [ofClass, declaredOf, ClassFile.members, List.foldlM_append, List.foldlM_map,
    bind_assoc]
  cases c.signature <;> rfl

theorem declaredOf_eq (h : (Signed.ofClass c).IsReadable) :
    declaredOf c = .ok (declaredBy c.signature) := by
  unfold declaredOf
  cases hs : c.signature with
  | none => rfl
  | some signature =>
      obtain ⟨-, hw⟩ := h signature hs
      exact congrArg (Except.mapError _) (declaredParameters_of_walk hw)

/-- The steps of a survey that succeeds. -/
theorem exists_of_ofClass (h : ofClass c = .ok survey) : ∃ bindings,
    (Signed.ofClass c).collect c.name .empty = .ok bindings ∧
      c.members.foldlM (Signed.collect c.name) bindings = .ok survey.bindings ∧
      survey.declared = declaredBy c.signature := by
  rw [ofClass_eq] at h
  obtain ⟨bindings, hc, h⟩ := exists_of_bind_eq_ok h
  obtain ⟨declared, hd, h⟩ := exists_of_bind_eq_ok h
  obtain ⟨after, hm, h⟩ := exists_of_bind_eq_ok h
  rw [declaredOf_eq (Signed.collect_spec hc).1] at hd
  obtain rfl := Except.ok.inj hd
  obtain rfl := Except.ok.inj h
  exact ⟨bindings, hc, hm, rfl⟩

/-- **What a survey finds.**  It reads every signature, and it discovers the free type variables. -/
theorem ofClass_spec (h : ofClass c = .ok survey) :
    (∀ p ∈ Signed.ofClass c :: c.members, p.IsReadable) ∧
      survey.declared = declaredBy c.signature ∧
      ∀ n, n ∈ survey.bindings.names ↔ ∃ p ∈ Signed.ofClass c :: c.members, p.IsFree n := by
  obtain ⟨bindings, hc, hm, hd⟩ := exists_of_ofClass h
  obtain ⟨hread, hnames⟩ := Signed.collect_spec hc
  obtain ⟨hreads, hall⟩ := Signed.foldlM_collect_spec hm
  refine ⟨List.forall_mem_cons.2 ⟨hread, hreads⟩, hd, fun n => ?_⟩
  rw [hall, hnames]
  simp [Bindings.names, Bindings.empty]

/-- A survey succeeds if every signature can be read. -/
theorem exists_ofClass (h : ∀ p ∈ Signed.ofClass c :: c.members, p.IsReadable) :
    ∃ survey, ofClass c = .ok survey := by
  obtain ⟨hread, hreads⟩ := List.forall_mem_cons.1 h
  obtain ⟨bindings, hc⟩ := Signed.exists_collect c.name .empty hread
  obtain ⟨after, hm⟩ := Signed.exists_foldlM_collect c.name bindings hreads
  refine ⟨⟨after, declaredBy c.signature⟩, ?_⟩
  rw [ofClass_eq, hc, declaredOf_eq hread]
  simp only [bind, Except.bind, hm]

/-- What a survey discovers can stand in a list of type parameters, as far as names and `;` go. -/
theorem isPlain (h : ofClass c = .ok survey) :
    survey.bindings.HasProperNames ∧ survey.bindings.HasPlainBounds := by
  obtain ⟨bindings, hc, hm, -⟩ := exists_of_ofClass h
  refine Signed.foldlM_collect_isPlain c.members_hasProperEvidence ?_ hm
  refine Signed.collect_isPlain ?_ ⟨List.forall_mem_nil _, List.forall_mem_nil _⟩ hc
  intro evidence he
  obtain rfl := Except.ok.inj he
  exact trivial

end Survey

end RecordRepair
