import RecordRepair.Proofs.ClassFile.Visibility
import RecordRepair.Proofs.Record.Outcome

/-! # A repaired class stays repaired

* `Settled settings c`: nothing in a class is left to repair, whatever a registry says.
* `repair_of_settled`: a settled class is left as it is, and no registry is asked.
* `settled_of_repair`: a repair leaves a settled class, unless an interface has a `;` in its name.
* `repair_stable`: so all later repairs under the same settings change nothing, though the registry
  may be another one each time. -/

namespace RecordRepair

open Signature

variable {settings : Settings} {lookup : Lookup} {c after : ClassFile} {outcome : Outcome}
  {plan : Plan}

/-! ### Settled classes -/

/-- Nothing in a class is left to repair. -/
structure Settled (settings : Settings) (c : ClassFile) : Prop where
  components : Plan.missingComponents settings c = none
  fields : (settings.patchComponents && settings.restorePrivateFields) = true →
    ∀ field ∈ c.fields, field.restore = field
  readable : settings.patchSignature = true →
    ∀ p ∈ Signed.ofClass c :: c.members, p.IsReadable
  declared : settings.patchSignature = true →
    ∀ p ∈ Signed.ofClass c :: c.members, ∀ n, p.IsFree n → n ∈ declaredBy c.signature

theorem Settled.missingSignature (h : Settled settings c) :
    Plan.missingSignature settings lookup c = .ok none := by
  rw [Plan.missingSignature]
  split
  · next hs =>
      obtain ⟨survey, hsurvey⟩ := Survey.exists_ofClass (h.readable hs)
      obtain ⟨-, hd, hnames⟩ := Survey.ofClass_spec hsurvey
      have hneeds : survey.needsDeclaration = false := by
        rw [Survey.needsDeclaration_eq_false_iff, hd]
        intro n hn
        obtain ⟨p, hp, hf⟩ := (hnames n).1 hn
        exact h.declared hs p hp n hf
      simp only [hsurvey, bind, Except.bind, hneeds]
      rfl
  · rfl

theorem Settled.newField_eq (h : Settled settings c) : ∀ field ∈ c.fields,
    settings.newField field = field := by
  intro field hm
  rw [Settings.newField]
  split
  · next hs => exact h.fields hs field hm
  · rfl

theorem Settled.apply_eq (h : Settled settings c) :
    Plan.apply ⟨none, none, Plan.exposedFields settings c⟩ c = c := by
  rw [Plan.apply, Plan.newFields_eq_map rfl, List.map_congr_left h.newField_eq, List.map_id']
  rfl

/-- **A settled class is left as it is,** and no registry is asked. -/
theorem repair_of_settled (lookup : Lookup) (h : c.isRecord = true → Settled settings c) :
    ∃ outcome, repair settings lookup c = .ok (outcome, c) ∧ outcome.isUnchanged = true := by
  have hok : ∃ outcome, repair settings lookup c = .ok (outcome, c) := by
    rw [repair]
    split
    · next hr =>
        have hs := h hr
        simp only [Plan.ofRecord, hs.missingSignature, hs.components, bind, Except.bind,
          hs.apply_eq]
        exact ⟨_, rfl⟩
    · exact ⟨{}, rfl⟩
  obtain ⟨outcome, hok⟩ := hok
  exact ⟨outcome, hok, (isUnchanged_iff_of_repair hok).2 rfl⟩

/-! ### What a repair leaves -/

theorem Field.restore_restore (field : Field) : field.restore.restore = field.restore := by
  cases hf : field.access.isFinalInstance with
  | false => simp [restore, hf]
  | true =>
      simp [restore, makePrivate, hf, AccessFlags.isFinalInstance_makePrivate,
        AccessFlags.makePrivate_makePrivate]

/-- The component that a field stands for does not depend on the visibility of the field. -/
theorem Plan.synthesizedComponents_apply :
    (plan.apply c).synthesizedComponents = c.synthesizedComponents := by
  have hmap : ∀ fields : List Field,
      (fields.filter fun field => field.access.isFinalInstance).map Component.ofField =
        ((fields.map fun field => (field.access.isFinalInstance, Component.ofField field)).filter
          Prod.fst).map Prod.snd := by
    intro fields
    rw [List.filter_map, List.map_map]
    rfl
  have hg : ∀ field : Field, (field.makePrivate.access.isFinalInstance,
      Component.ofField field.makePrivate) =
        (field.access.isFinalInstance, Component.ofField field) := fun field =>
    congrArg (·, _) AccessFlags.isFinalInstance_makePrivate
  rw [ClassFile.synthesizedComponents, ClassFile.synthesizedComponents, ClassFile.componentFields,
    ClassFile.componentFields, hmap, hmap, Plan.apply, Plan.map_newFields hg]

theorem Plan.missingComponents_apply (hc : plan.components = Plan.missingComponents settings c) :
    Plan.missingComponents settings (plan.apply c) = none := by
  cases hl : plan.components with
  | some list =>
      obtain ⟨-, hne⟩ := Plan.eq_synthesizedComponents (hc.symm.trans hl)
      have hh : (plan.apply c).hasComponents = true := by
        rw [ClassFile.hasComponents, Plan.apply, hl]
        cases list with
        | nil => exact absurd rfl hne
        | cons _ _ => rfl
      rw [missingComponents, hh, Bool.not_true, Bool.and_false]
      rfl
  | none =>
      have hh : (plan.apply c).hasComponents = c.hasComponents := by
        rw [ClassFile.hasComponents, Plan.apply, hl]
        rfl
      rw [missingComponents, hh, Plan.synthesizedComponents_apply]
      exact hc.symm.trans hl

theorem not_isFree_of_declare {bindings : Bindings} {text n : String}
    (hn : bindings.HasProperNames) (hp : bindings.HasPlainBounds)
    (hi : ∀ name ∈ c.interfaces, ';' ∉ name.toList) (h : declare lookup c bindings = .ok text) :
    ¬ IsFree .classKind text n := by
  rintro ⟨hm, -⟩
  have := reference?_of_declare hn hp hi h _ hm
  cases this

/-- **A repair leaves a settled class.** -/
theorem settled_of_repair (hr : c.isRecord = true)
    (hi : ∀ name ∈ c.interfaces, ';' ∉ name.toList)
    (h : repair settings lookup c = .ok (outcome, after)) : Settled settings after := by
  obtain ⟨plan, hsig, hcomp, hpriv, -, rfl⟩ := exists_plan_of_repair hr h
  refine ⟨Plan.missingComponents_apply hcomp, fun hp field hm => ?_, fun hs => ?_, fun hs => ?_⟩
  · rw [Plan.apply, Plan.newFields_eq_map hpriv] at hm
    obtain ⟨field, -, rfl⟩ := List.mem_map.1 hm
    rw [Settings.newField, if_pos hp, Field.restore_restore]
  · obtain ⟨survey, hsurvey, -, hwalk, -⟩ := missingSignature_spec hs hsig
    obtain ⟨hread, -, -⟩ := Survey.ofClass_spec hsurvey
    refine List.forall_mem_cons.2 ⟨fun text ht => ⟨⟨_, rfl⟩, hwalk text ht⟩, fun p hp => ?_⟩
    obtain ⟨q, hq, hsame⟩ := exists_member_of_apply hcomp p hp
    exact hsame.isReadable (hread q (List.mem_cons_of_mem _ hq))
  · obtain ⟨survey, hsurvey, hall, -, hnew⟩ := missingSignature_spec hs hsig
    obtain ⟨-, -, hnames⟩ := Survey.ofClass_spec hsurvey
    refine List.forall_mem_cons.2 ⟨fun n hf => ?_, fun p hp n hf => ?_⟩
    · rcases hnew with hnone | ⟨text, htext, hd⟩
      · -- the class has kept its signature
        have hkept : (plan.apply c).signature = c.signature := by
          rw [Plan.apply, hnone]
          rfl
        have hf' : (Signed.ofClass c).IsFree n := by
          obtain ⟨text, ht, hn⟩ := hf
          exact ⟨text, hkept.symm.trans ht, hn⟩
        exact hall n ((hnames n).2 ⟨_, List.mem_cons_self, hf'⟩)
      · -- the class has a new signature, which refers to no type variable
        obtain ⟨text', ht, hn⟩ := hf
        have hkept : (plan.apply c).signature = some text := by
          rw [Plan.apply, htext]
          rfl
        obtain rfl := Option.some.inj (hkept.symm.trans ht)
        obtain ⟨hproper, hplain⟩ := Survey.isPlain hsurvey
        exact absurd hn (not_isFree_of_declare hproper hplain hi hd)
    · obtain ⟨q, hq, hsame⟩ := exists_member_of_apply hcomp p hp
      exact hall n ((hnames n).2 ⟨q, List.mem_cons_of_mem _ hq, hsame.isFree hf⟩)

/-! ### Later repairs -/

/-- Repairs a class several times over, each time with a registry of its own: the result and the
class after each pass. -/
def repairWithEach (settings : Settings) :
    List Lookup → ClassFile → List (Except Failure Outcome × ClassFile)
  | [], _ => []
  | lookup :: lookups, c =>
    let result := repair settings lookup c
    let after := afterRepair c result
    (result.map Prod.fst, after) :: repairWithEach settings lookups after

theorem repairWithEach_of_settled (h : c.isRecord = true → Settled settings c)
    (lookups : List Lookup) : ∀ pass ∈ repairWithEach settings lookups c,
      ∃ outcome, pass = (.ok outcome, c) ∧ outcome.isUnchanged = true := by
  induction lookups with
  | nil => exact List.forall_mem_nil _
  | cons lookup lookups ih =>
      obtain ⟨outcome, hr, hu⟩ := repair_of_settled lookup h
      rw [repairWithEach, hr]
      exact List.forall_mem_cons.2 ⟨⟨outcome, rfl, hu⟩, ih⟩

/-- **A repaired class stays repaired.**  Once a repair has succeeded, no later repair under the
same settings fails or changes anything, whatever its registry says. -/
theorem repair_stable (hi : ∀ name ∈ c.interfaces, ';' ∉ name.toList)
    (h : repair settings lookup c = .ok (outcome, after)) :
    (∀ later : Lookup, ∃ unchanged, repair settings later after = .ok (unchanged, after) ∧
      unchanged.isUnchanged = true) ∧
    ∀ lookups, ∀ pass ∈ repairWithEach settings lookups after,
      ∃ unchanged, pass = (.ok unchanged, after) ∧ unchanged.isUnchanged = true := by
  have hs : after.isRecord = true → Settled settings after := by
    intro ha
    cases hr : c.isRecord with
    | true => exact settled_of_repair hr hi h
    | false =>
        rw [repair, hr] at h
        obtain ⟨-, rfl⟩ := Prod.mk.inj (Except.ok.inj h)
        rw [hr] at ha
        cases ha
  exact ⟨fun later => repair_of_settled later hs, repairWithEach_of_settled hs⟩

theorem repair_stable_strippedBox : ∃ outcome after,
    repair {} (Registry.lookup .standard) strippedBox = .ok (outcome, after) ∧
      outcome.isUnchanged = false ∧
      (∀ later : Lookup, ∃ unchanged, repair {} later after = .ok (unchanged, after) ∧
        unchanged.isUnchanged = true) ∧
      ∀ lookups, ∀ pass ∈ repairWithEach {} lookups after,
        ∃ unchanged, pass = (.ok unchanged, after) ∧ unchanged.isUnchanged = true := by
  have h : repair {} (Registry.lookup .standard) strippedBox = .ok
      ({ isRecord := true, componentsAdded := 1,
         signature := some "<T:Ljava/lang/Object;>Ljava/lang/Record;" },
       { strippedBox with
         signature := some "<T:Ljava/lang/Object;>Ljava/lang/Record;"
         components := some [⟨"value", "Ljava/lang/Object;", some "TT;"⟩] }) := by rfl
  exact ⟨_, _, h, rfl, repair_stable (by decide) h⟩

end RecordRepair
