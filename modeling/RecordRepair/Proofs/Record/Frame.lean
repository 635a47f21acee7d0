import Mathlib.Data.List.Forall2
import RecordRepair.Proofs.ClassFile.Visibility
import RecordRepair.Proofs.Record.Outcome

/-! # What a repair leaves alone

A repair writes the list of components, the class signature and the access flags of fields, and
each of them only under the settings that ask for it.

* `Field.ChangesOnly`: what becomes of a field.  Its visibility alone may change, and must if the
  field backs a component and the settings ask for it.
* `ClassFile.ChangesOnly`: what becomes of a class.  Components are written exactly if they are
  asked for, none are listed, and some field backs one.
* `Plan.changesOnly`: the plan of a repair is so.
* `repair_changes_only`: every repair is so, and one that fails, or is asked for a class that is no
  record, leaves the class alone. -/

namespace RecordRepair

variable {settings : Settings} {lookup : Lookup} {c : ClassFile} {plan : Plan} {field : Field}

/-! ### Fields -/

/-- Of a field only the visibility changes, and only if the field backs a component and the
settings ask for it. -/
structure Field.ChangesOnly (settings : Settings) (before after : Field) : Prop where
  name : after.name = before.name
  descriptor : after.descriptor = before.descriptor
  signature : after.signature = before.signature
  access : after.access ≠ before.access → settings.patchComponents = true ∧
    settings.restorePrivateFields = true ∧ before.access.isFinalInstance = true
  madePrivate : settings.patchComponents = true → settings.restorePrivateFields = true →
    before.access.isFinalInstance = true → AccessFlags.MadePrivate before.access after.access

theorem Field.ChangesOnly.refl (h : settings.patchComponents = true →
    settings.restorePrivateFields = true → field.access.isFinalInstance = false) :
    field.ChangesOnly settings field where
  name := rfl
  descriptor := rfl
  signature := rfl
  access hne := absurd rfl hne
  madePrivate hp hr hf := by
    rw [h hp hr] at hf
    cases hf

theorem Field.changesOnly_newField (settings : Settings) (field : Field) :
    field.ChangesOnly settings (settings.newField field) := by
  rw [Settings.newField]
  split
  · next hs =>
      obtain ⟨hs, hr⟩ := Bool.and_eq_true_iff.1 hs
      rw [restore]
      split
      · next hf =>
          exact {
            name := rfl
            descriptor := rfl
            signature := rfl
            access := fun _ => ⟨hs, hr, hf⟩
            madePrivate := fun _ _ _ => AccessFlags.madePrivate_makePrivate field.access }
      · next hf => exact .refl fun _ _ => Bool.eq_false_iff.2 hf
  · next hs => exact .refl fun hc hr => absurd (Bool.and_eq_true_iff.2 ⟨hc, hr⟩) hs

/-! ### Components -/

theorem Component.distinct_eq_nil_iff {list : List Component} : distinct list = [] ↔ list = [] := by
  cases list <;> simp [distinct]

/-- Some component is put together if some field backs one. -/
theorem ClassFile.synthesizedComponents_ne_nil_iff : c.synthesizedComponents ≠ [] ↔
    ∃ field ∈ c.fields, field.access.isFinalInstance = true := by
  rw [synthesizedComponents, ne_eq, Component.distinct_eq_nil_iff, List.map_eq_nil_iff,
    componentFields, List.filter_eq_nil_iff]
  simp only [not_forall, not_not, exists_prop]

theorem ClassFile.hasComponents_eq_false_iff :
    c.hasComponents = false ↔ c.components = none ∨ c.components = some [] := by
  rw [hasComponents]
  cases c.components with
  | none => simp
  | some list => simp

/-- Components are written if they are asked for, none are listed, and some field backs one. -/
theorem Plan.missingComponents_ne_none_iff : missingComponents settings c ≠ none ↔
    settings.patchComponents = true ∧ (c.components = none ∨ c.components = some []) ∧
      ∃ field ∈ c.fields, field.access.isFinalInstance = true := by
  rw [← ClassFile.synthesizedComponents_ne_nil_iff, ← ClassFile.hasComponents_eq_false_iff,
    missingComponents]
  cases settings.patchComponents <;> cases c.hasComponents <;> simp

/-! ### Classes -/

/-- Nothing in a class changes but the list of components, the class signature and the visibility
of fields, and these as the settings ask for it. -/
structure ClassFile.ChangesOnly (settings : Settings) (before after : ClassFile) : Prop where
  name : after.name = before.name
  access : after.access = before.access
  superclass : after.superclass = before.superclass
  interfaces : after.interfaces = before.interfaces
  methods : after.methods = before.methods
  fields : List.Forall₂ (Field.ChangesOnly settings) before.fields after.fields
  components : after.components ≠ before.components ↔ settings.patchComponents = true ∧
    (before.components = none ∨ before.components = some []) ∧
      ∃ field ∈ before.fields, field.access.isFinalInstance = true
  signature : after.signature ≠ before.signature → settings.patchSignature = true

theorem Plan.changesOnly (hs : missingSignature settings lookup c = .ok plan.signature)
    (hc : plan.components = missingComponents settings c)
    (hp : plan.privateFields = exposedFields settings c) :
    c.ChangesOnly settings (plan.apply c) where
  name := rfl
  access := rfl
  superclass := rfl
  interfaces := rfl
  methods := rfl
  fields := by
    rw [(isEffective hs hc hp).fields_apply, List.forall₂_map_right_iff, List.forall₂_same]
    exact fun field _ => Field.changesOnly_newField settings field
  components := by
    rw [ne_eq, (isEffective hs hc hp).components_eq_iff, hc]
    exact missingComponents_ne_none_iff
  signature hne := by
    have heff : plan.IsEffective settings c := isEffective hs hc hp
    by_contra hsettings
    rw [missingSignature, if_neg hsettings] at hs
    exact hne (heff.signature_eq_iff.2 (Except.ok.inj hs).symm)

/-! ### Repairs -/

/-- **Nothing else is touched.**  A repair that fails leaves the class as it was, and so does one of
a class that is no record, which never fails.  The repair of a record changes the list of
components, the class signature and the visibility of the fields that back components, each under
its settings, and nothing else. -/
theorem repair_changes_only (settings : Settings) (lookup : Lookup) (c : ClassFile) :
    (∀ failure, repair settings lookup c = .error failure →
      afterRepair c (repair settings lookup c) = c) ∧
    (c.superclass ≠ some recordBase → repair settings lookup c = .ok ({}, c)) ∧
    (c.superclass = some recordBase → ∀ outcome after,
      repair settings lookup c = .ok (outcome, after) → c.ChangesOnly settings after) := by
  refine ⟨fun failure h => ?_, fun hr => ?_, fun hr outcome after h => ?_⟩
  · rw [h]
    rfl
  · rw [repair, if_neg fun h => hr (ClassFile.isRecord_eq_true_iff.1 h)]
  · obtain ⟨plan, hs, hc, hp, -, rfl⟩ :=
      exists_plan_of_repair (ClassFile.isRecord_eq_true_iff.2 hr) h
    exact Plan.changesOnly hs hc hp

end RecordRepair
