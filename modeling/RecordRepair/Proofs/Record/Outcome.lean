import RecordRepair.Proofs.Record.Closure

/-! # What an outcome says

An outcome is read off the plan of a repair, and the two classes are never compared.  It says what a
comparison would say, since no plan writes what is there already.

* `Plan.IsEffective`: what a plan writes is not what the class has.
* `Plan.isEffective`: the plans of repairs are so.  Components are written only if none are listed,
  and a new class signature declares a type variable that the old one does not declare.
* `Outcome.Describes`: an outcome says how two classes differ.
* `repair_describes`: the outcome of a repair describes it. -/

namespace RecordRepair

open Signature

variable {settings : Settings} {lookup : Lookup} {c after : ClassFile} {outcome : Outcome}
  {plan : Plan}

/-- An outcome says how the class before a repair differs from the class after it. -/
structure Outcome.Describes (outcome : Outcome) (before after : ClassFile) : Prop where
  isUnchanged : outcome.isUnchanged = true ↔ after = before
  isRecord : outcome.isRecord = true ↔ before.superclass = some recordBase
  /-- A class signature is reported exactly if there is another one than before. -/
  signature_isSome : outcome.signature.isSome = true ↔ after.signature ≠ before.signature
  signature_eq : ∀ text, outcome.signature = some text → after.signature = some text
  /-- All components of a new list count as added. -/
  componentsAdded : outcome.componentsAdded =
    if after.components = before.components then 0 else (after.components.getD []).length
  fields_length : after.fields.length = before.fields.length
  /-- The fields whose access flags differ are counted. -/
  fieldsMadePrivate : outcome.fieldsMadePrivate =
    (before.fields.zip after.fields).countP fun pair => pair.1.access != pair.2.access

theorem ClassFile.isRecord_eq_true_iff : c.isRecord = true ↔ c.superclass = some recordBase :=
  beq_iff_eq

/-! ### Plans write something new -/

namespace Plan

/-- What a plan writes is not what the class has, and it is no empty list.  Its fields are those that
are not private yet. -/
structure IsEffective (settings : Settings) (plan : Plan) (c : ClassFile) : Prop where
  components : ∀ list, plan.components = some list → c.components ≠ some list
  nonempty : plan.components ≠ some []
  signature : ∀ text, plan.signature = some text → c.signature ≠ some text
  privateFields : plan.privateFields = exposedFields settings c

theorem components_ne_of_missingComponents {list : List Component}
    (h : missingComponents settings c = some list) : c.components ≠ some list := by
  intro hc
  obtain ⟨-, hne⟩ := eq_synthesizedComponents h
  have hhas : c.hasComponents = true := by
    rw [ClassFile.hasComponents, hc, Option.any_some, Bool.not_eq_true', List.isEmpty_eq_false_iff]
    exact hne
  rw [missingComponents, hhas, Bool.not_true, Bool.and_false] at h
  cases h

/-- The old signature does not declare all that was found, but the new one does. -/
theorem signature_ne_of_missingSignature {text : String}
    (h : missingSignature settings lookup c = .ok (some text)) : c.signature ≠ some text := by
  intro hc
  obtain ⟨survey, hsurvey, hneeds, hd⟩ := exists_declare_of_missingSignature h
  obtain ⟨-, hdeclared, -⟩ := Survey.ofClass_spec hsurvey
  have hall : survey.needsDeclaration = false := by
    rw [Survey.needsDeclaration_eq_false_iff, hdeclared, hc,
      Survey.declaredBy_of_declare hsurvey hd]
    exact fun _ hn => hn
  rw [hall] at hneeds
  cases hneeds

theorem isEffective (hs : missingSignature settings lookup c = .ok plan.signature)
    (hc : plan.components = missingComponents settings c)
    (hp : plan.privateFields = exposedFields settings c) : plan.IsEffective settings c where
  components _ hl := components_ne_of_missingComponents (hc.symm.trans hl)
  nonempty hl := (eq_synthesizedComponents (hc.symm.trans hl)).2 rfl
  signature _ ht := signature_ne_of_missingSignature (hs.trans (congrArg Except.ok ht))
  privateFields := hp

end Plan

/-! ### Outcomes -/

/-- Something new that takes the place of something else cannot be missed. -/
theorem orElse_eq_right_iff {α : Type} {x y : Option α} (h : ∀ a, x = some a → y ≠ some a) :
    (x <|> y) = y ↔ x = none := by
  cases x with
  | none => exact ⟨fun _ => rfl, fun _ => rfl⟩
  | some a => exact ⟨fun ha => absurd ha.symm (h a rfl), fun hn => by cases hn⟩

theorem countP_zip_map {α β : Type} (p : α × β → Bool) (f : α → β) (list : List α) :
    (list.zip (list.map f)).countP p = list.countP fun a => p (a, f a) := by
  have hzip : list.zip (list.map f) = list.map fun a => (a, f a) := by
    conv_lhs => rw [← List.map_id list, List.map_map, List.zip_map']
    rfl
  rw [hzip, List.countP_map]
  rfl

namespace Plan.IsEffective

theorem fields_apply (h : plan.IsEffective settings c) :
    (plan.apply c).fields = c.fields.map settings.newField := newFields_eq_map h.privateFields

theorem fieldsMadePrivate_outcome (h : plan.IsEffective settings c) :
    plan.outcome.fieldsMadePrivate =
      c.fields.countP fun field => (settings.newField field).access != field.access :=
  (congrArg List.length h.privateFields).trans (length_exposedFields settings c)

theorem fields_eq_iff (h : plan.IsEffective settings c) :
    (plan.apply c).fields = c.fields ↔ plan.outcome.fieldsMadePrivate = 0 := by
  rw [h.fieldsMadePrivate_outcome, h.fields_apply, List.countP_eq_zero]
  conv_lhs => rw [← List.map_id c.fields, List.map_map]
  simp only [List.map_inj_left, Function.comp_id, id, Settings.newField_eq_iff, bne_iff_ne, not_not]

theorem components_eq_iff (h : plan.IsEffective settings c) :
    (plan.apply c).components = c.components ↔ plan.components = none :=
  orElse_eq_right_iff h.components

theorem signature_eq_iff (h : plan.IsEffective settings c) :
    (plan.apply c).signature = c.signature ↔ plan.signature = none :=
  orElse_eq_right_iff h.signature

theorem componentsAdded_eq_zero_iff (h : plan.IsEffective settings c) :
    plan.outcome.componentsAdded = 0 ↔ plan.components = none := by
  rw [outcome]
  cases hl : plan.components with
  | none => exact ⟨fun _ => rfl, fun _ => rfl⟩
  | some list =>
      cases list with
      | nil => exact absurd hl h.nonempty
      | cons _ _ => simp

/-- An effective plan changes nothing only if it says so. -/
theorem isUnchanged_iff (h : plan.IsEffective settings c) :
    plan.outcome.isUnchanged = true ↔ plan.apply c = c := by
  have hunchanged : plan.outcome.isUnchanged = true ↔
      plan.components = none ∧ plan.signature = none ∧ (plan.apply c).fields = c.fields := by
    rw [← h.componentsAdded_eq_zero_iff, h.fields_eq_iff, Outcome.isUnchanged]
    simp only [Bool.and_eq_true, beq_iff_eq, Option.isNone_iff_eq_none, and_assoc]
    rfl
  rw [hunchanged, ← h.components_eq_iff, ← h.signature_eq_iff]
  constructor
  · rintro ⟨hc, hs, hf⟩
    have hc' : (plan.components <|> c.components) = c.components := hc
    have hs' : (plan.signature <|> c.signature) = c.signature := hs
    have hf' : plan.newFields c = c.fields := hf
    rw [apply, hc', hs', hf']
  · intro ha
    have hf : (plan.apply c).fields = c.fields := congrArg ClassFile.fields ha
    exact ⟨congrArg ClassFile.components ha, congrArg ClassFile.signature ha, hf⟩

theorem describes (h : plan.IsEffective settings c) (hr : c.isRecord = true) :
    plan.outcome.Describes c (plan.apply c) where
  isUnchanged := h.isUnchanged_iff
  isRecord := ⟨fun _ => ClassFile.isRecord_eq_true_iff.1 hr, fun _ => rfl⟩
  signature_isSome := by
    have hs : plan.outcome.signature = plan.signature := rfl
    rw [hs, ne_eq, h.signature_eq_iff, Option.isSome_iff_ne_none]
  signature_eq text ht := by
    have hp : plan.signature = some text := ht
    rw [apply, hp]
    rfl
  componentsAdded := by
    rw [outcome]
    simp only [h.components_eq_iff]
    cases hl : plan.components with
    | none => rfl
    | some list =>
        rw [apply, hl]
        rfl
  fields_length := by rw [h.fields_apply, List.length_map]
  fieldsMadePrivate := by
    rw [h.fieldsMadePrivate_outcome, h.fields_apply, countP_zip_map]
    exact List.countP_congr fun field _ => by rw [bne_comm]

end Plan.IsEffective

theorem Outcome.describes_self (hr : c.isRecord = false) : Outcome.Describes {} c c where
  isUnchanged := ⟨fun _ => rfl, fun _ => rfl⟩
  isRecord := by
    rw [← ClassFile.isRecord_eq_true_iff, hr]
  signature_isSome := by simp
  signature_eq _ ht := nomatch ht
  componentsAdded := by simp
  fields_length := rfl
  fieldsMadePrivate := by
    have hzip := countP_zip_map (fun pair : Field × Field => pair.1.access != pair.2.access) id
      c.fields
    rw [List.map_id] at hzip
    rw [hzip]
    exact (List.countP_eq_zero.2 fun field _ => by simp).symm

/-! ### Repairs -/

/-- A repair leaves a class that is no record as it is, and carries out an effective plan on a
record. -/
theorem repair_cases (h : repair settings lookup c = .ok (outcome, after)) :
    (c.isRecord = false ∧ outcome = {} ∧ after = c) ∨ (c.isRecord = true ∧ ∃ plan : Plan,
      plan.IsEffective settings c ∧ outcome = plan.outcome ∧ after = plan.apply c) := by
  cases hr : c.isRecord with
  | false =>
      rw [repair_of_not_isRecord hr] at h
      cases h
      exact Or.inl ⟨rfl, rfl, rfl⟩
  | true =>
      obtain ⟨plan, hs, hc, hp, ho, ha⟩ := exists_plan_of_repair hr h
      exact Or.inr ⟨rfl, plan, Plan.isEffective hs hc hp, ho, ha⟩

theorem isUnchanged_iff_of_repair (h : repair settings lookup c = .ok (outcome, after)) :
    outcome.isUnchanged = true ↔ after = c := by
  rcases repair_cases h with ⟨hr, rfl, rfl⟩ | ⟨-, plan, hp, rfl, rfl⟩
  · exact (Outcome.describes_self hr).isUnchanged
  · exact hp.isUnchanged_iff

theorem isRecord_of_repair (h : repair settings lookup c = .ok (outcome, after)) :
    outcome.isRecord = c.isRecord := by
  rcases repair_cases h with ⟨hr, rfl, -⟩ | ⟨hr, plan, -, rfl, -⟩
  · exact hr.symm
  · exact hr.symm

/-- **The outcome of a repair tells the truth.**  It reports a change exactly if there is one, and
its signature, its count of components and its count of fields are those of a comparison of the two
classes. -/
theorem repair_describes (h : repair settings lookup c = .ok (outcome, after)) :
    outcome.Describes c after := by
  rcases repair_cases h with ⟨hr, rfl, rfl⟩ | ⟨hr, plan, hp, rfl, rfl⟩
  · exact Outcome.describes_self hr
  · exact hp.describes hr

theorem repair_describes_strippedBox : ∃ outcome after,
    repair { restorePrivateFields := true } (fun _ => .error ⟨"offline"⟩) strippedBox =
        .ok (outcome, after) ∧
      outcome.isUnchanged = false ∧ outcome.componentsAdded = 1 ∧ outcome.fieldsMadePrivate = 1 ∧
      outcome.Describes strippedBox after := by
  have h : repair { restorePrivateFields := true } (fun _ => .error ⟨"offline"⟩) strippedBox = .ok
      ({ isRecord := true, componentsAdded := 1,
         signature := some "<T:Ljava/lang/Object;>Ljava/lang/Record;", fieldsMadePrivate := 1 },
       { strippedBox with
         fields := [{
           access := AccessFlags.accPrivate ||| AccessFlags.accFinal
           name := "value"
           descriptor := "Ljava/lang/Object;"
           signature := some "TT;" }]
         signature := some "<T:Ljava/lang/Object;>Ljava/lang/Record;"
         components := some [⟨"value", "Ljava/lang/Object;", some "TT;"⟩] }) := by rfl
  exact ⟨_, _, h, rfl, rfl, rfl, repair_describes h⟩

end RecordRepair
