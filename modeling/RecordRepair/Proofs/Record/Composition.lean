import RecordRepair.Proofs.Record.Discovery
import RecordRepair.Proofs.Record.Frame

/-! # One repair after the other

The list of components and the class signature may be repaired at once or in two passes.

* `Settings.both`, `Settings.signatureOnly` and `Settings.componentsOnly` ask for both repairs or
  for one of them.
* `repair_both_eq`: both repairs at once are the repair of the signature, and then that of the
  components.
* `mem_members_apply`: the other way round, the second pass sees components that the first has put
  back.  They say what fields of the class say, so the same signatures are read and the same type
  variables are found (`exists_survey_apply_iff`, `exists_isFree_apply_iff`), if in another order.
* `repair_in_steps` puts the two orders together. -/

namespace RecordRepair

open Signature

variable {settings : Settings} {lookup : Lookup} {c after : ClassFile} {outcome : Outcome}
  {plan : Plan} {restore : Bool} {n : String}

namespace Settings

/-- Both repairs. -/
def both (restore : Bool) : Settings where
  patchComponents := true
  patchSignature := true
  restorePrivateFields := restore

/-- The class signature is repaired, and the components are not. -/
def signatureOnly (restore : Bool) : Settings where
  patchComponents := false
  patchSignature := true
  restorePrivateFields := restore

/-- The components are repaired, and the class signature is not. -/
def componentsOnly (restore : Bool) : Settings where
  patchComponents := true
  patchSignature := false
  restorePrivateFields := restore

end Settings

/-! ### Passes -/

theorem repair_componentsOnly (hr : c.isRecord = true) :
    repair (.componentsOnly restore) lookup c =
      .ok ((Plan.writing (.both restore) c none).outcome,
        (Plan.writing (.both restore) c none).apply c) := repair_of_isRecord hr

theorem exists_repair_componentsOnly (restore : Bool) (lookup : Lookup) (c : ClassFile) :
    ∃ outcome after, repair (.componentsOnly restore) lookup c = .ok (outcome, after) := by
  cases hr : c.isRecord with
  | false => exact ⟨_, _, repair_of_not_isRecord hr⟩
  | true => exact ⟨_, _, repair_componentsOnly hr⟩

theorem repair_signatureOnly (hr : c.isRecord = true) :
    repair (.signatureOnly restore) lookup c =
      (Plan.missingSignature (.both restore) lookup c).map fun signature =>
        ({ isRecord := true, signature := signature },
          { c with signature := signature <|> c.signature }) := repair_of_isRecord hr

theorem repair_both_eq (restore : Bool) (lookup : Lookup) (c : ClassFile) :
    repair (.both restore) lookup c = (do
      let (first, between) ← repair (.signatureOnly restore) lookup c
      let (second, last) ← repair (.componentsOnly restore) lookup between
      .ok ({ second with signature := first.signature }, last)) := by
  cases hr : c.isRecord with
  | false =>
      have hpass : ∀ settings, repair settings lookup c = .ok ({}, c) := fun settings =>
        repair_of_not_isRecord hr
      simp only [hpass, bind, Except.bind]
  | true =>
      rw [repair_of_isRecord hr, repair_signatureOnly hr]
      cases Plan.missingSignature (.both restore) lookup c with
      | error failure => rfl
      | ok signature =>
          have hrecord : ({ c with signature := signature <|> c.signature } : ClassFile).isRecord =
              true := hr
          simp only [Except.map, bind, Except.bind, repair_componentsOnly hrecord]
          rfl

/-! ### Components first -/

/-- Components are put back only where none were listed, so no member of the class is lost. -/
theorem mem_members_apply (hc : plan.components = Plan.missingComponents settings c) :
    ∀ p ∈ c.members, p ∈ (plan.apply c).members := by
  intro p hp
  rw [ClassFile.members, List.mem_append, List.mem_append] at hp ⊢
  rcases hp with (hp | hp) | hp
  · refine Or.inl (Or.inl ?_)
    cases hl : plan.components with
    | none =>
        rw [Plan.apply, hl]
        exact hp
    | some list =>
        have hne : Plan.missingComponents settings c ≠ none := by
          rw [← hc, hl]
          exact Option.some_ne_none list
        obtain ⟨-, hnone | hempty, -⟩ := Plan.missingComponents_ne_none_iff.1 hne
        · rw [hnone] at hp
          cases hp
        · rw [hempty] at hp
          cases hp
  · rw [Plan.apply, Plan.map_ofField_newFields]
    exact Or.inl (Or.inr hp)
  · exact Or.inr hp

theorem parts_apply (hc : plan.components = Plan.missingComponents settings c)
    (hs : plan.signature = none) :
    (∀ p ∈ (plan.apply c).parts, ∃ q ∈ c.parts, p.SaysSame q) ∧
      ∀ p ∈ c.parts, p ∈ (plan.apply c).parts := by
  have hclass : Signed.ofClass (plan.apply c) = Signed.ofClass c := by
    rw [Signed.ofClass, Plan.apply, hs]
    rfl
  rw [ClassFile.parts, ClassFile.parts, hclass]
  refine ⟨List.forall_mem_cons.2 ⟨⟨_, List.mem_cons_self, rfl, rfl, rfl⟩, fun p hp => ?_⟩,
    List.forall_mem_cons.2 ⟨List.mem_cons_self, fun p hp => ?_⟩⟩
  · obtain ⟨q, hq, hsame⟩ := exists_member_of_apply hc p hp
    exact ⟨q, List.mem_cons_of_mem _ hq, hsame⟩
  · exact List.mem_cons_of_mem _ (mem_members_apply hc p hp)

theorem Survey.exists_ofClass_iff :
    (∃ survey, ofClass c = .ok survey) ↔ ∀ p ∈ c.parts, p.IsReadable :=
  ⟨fun ⟨_, h⟩ => (ofClass_spec h).1, exists_ofClass⟩

theorem exists_survey_apply_iff (hc : plan.components = Plan.missingComponents settings c)
    (hs : plan.signature = none) : (∃ survey, Survey.ofClass (plan.apply c) = .ok survey) ↔
      ∃ survey, Survey.ofClass c = .ok survey := by
  obtain ⟨hold, hnew⟩ := parts_apply hc hs
  rw [Survey.exists_ofClass_iff, Survey.exists_ofClass_iff]
  refine ⟨fun h p hp => h p (hnew p hp), fun h p hp => ?_⟩
  obtain ⟨q, hq, hsame⟩ := hold p hp
  exact hsame.isReadable (h q hq)

theorem exists_isFree_apply_iff (hc : plan.components = Plan.missingComponents settings c)
    (hs : plan.signature = none) (n : String) :
    (∃ p ∈ (plan.apply c).parts, p.IsFree n) ↔ ∃ p ∈ c.parts, p.IsFree n := by
  obtain ⟨hold, hnew⟩ := parts_apply hc hs
  constructor
  · rintro ⟨p, hp, hf⟩
    obtain ⟨q, hq, hsame⟩ := hold p hp
    exact ⟨q, hq, hsame.isFree hf⟩
  · rintro ⟨p, hp, hf⟩
    exact ⟨p, hnew p hp, hf⟩

theorem isSome_missingSignature_iff {signature : Option String}
    (hs : settings.patchSignature = true)
    (h : Plan.missingSignature settings lookup c = .ok signature) :
    signature.isSome = true ↔
      ∃ n, (∃ p ∈ c.parts, p.IsFree n) ∧ n ∉ declaredBy c.signature := by
  obtain ⟨survey, hsurvey, hcases⟩ := missingSignature_cases hs h
  obtain ⟨-, hdeclared, hnames⟩ := Survey.ofClass_spec hsurvey
  have hneeds : survey.needsDeclaration = false ↔
      ¬∃ n, (∃ p ∈ c.parts, p.IsFree n) ∧ n ∉ declaredBy c.signature := by
    rw [Survey.needsDeclaration_eq_false_iff, hdeclared]
    simp only [hnames, not_exists, not_and, not_not]
    rfl
  rcases hcases with ⟨hn, text, rfl, -⟩ | ⟨hn, rfl⟩
  · rw [← Bool.not_eq_false, hneeds, not_not] at hn
    exact ⟨fun _ => hn, fun _ => rfl⟩
  · exact ⟨fun h => (nomatch h), fun h => absurd h (hneeds.1 hn)⟩

/-- Classes with one signature and the same free type variables need a new signature alike, and the
new signatures declare the same names. -/
theorem missingSignature_agree {d : ClassFile} {other : Lookup} {x y : Option String}
    (hs : d.signature = c.signature)
    (hf : ∀ n, (∃ p ∈ d.parts, p.IsFree n) ↔ ∃ p ∈ c.parts, p.IsFree n)
    (hp : settings.patchSignature = true)
    (hx : Plan.missingSignature settings other d = .ok x)
    (hy : Plan.missingSignature settings lookup c = .ok y) :
    (x.isSome = true ↔ y.isSome = true) ∧ ∀ s t, x = some s → y = some t →
      ∀ n, Declares .classKind s n ↔ Declares .classKind t n := by
  refine ⟨?_, fun s t hxs hyt n => ?_⟩
  · rw [isSome_missingSignature_iff hp hx, isSome_missingSignature_iff hp hy, hs]
    simp only [hf]
  · obtain ⟨_, hsurvey, -, hd⟩ := exists_declare_of_missingSignature (hxs ▸ hx)
    obtain ⟨_, hsurvey', -, hd'⟩ := exists_declare_of_missingSignature (hyt ▸ hy)
    rw [declares_iff_of_declare hsurvey hd, declares_iff_of_declare hsurvey' hd']
    exact hf n

theorem missingSignature_apply {x y : Option String} {other : Settings}
    (hc : plan.components = Plan.missingComponents other c) (hs : plan.signature = none)
    (hp : settings.patchSignature = true)
    (hx : Plan.missingSignature settings lookup (plan.apply c) = .ok x)
    (hy : Plan.missingSignature settings lookup c = .ok y) :
    (x.isSome = true ↔ y.isSome = true) ∧ ∀ s t, x = some s → y = some t →
      ∀ n, Declares .classKind s n ↔ Declares .classKind t n := by
  have hsame : (plan.apply c).signature = c.signature := by
    rw [Plan.apply, hs]
    rfl
  exact missingSignature_agree hsame (exists_isFree_apply_iff hc hs) hp hx hy

/-! ### Both orders -/

/-- **The two repairs compose.**  Both at once fail for the failure of the signature, and else they
are the repair of the signature and then that of the components: the class is the one that the
second pass leaves, and the outcome is that of the second pass with the signature of the first.  The
other way round the same signatures are read, and if all succeeds, the class differs at most in its
signature.  One is written in both ways or in neither, and both declare the same names. -/
theorem repair_in_steps (restore : Bool) (lookup : Lookup) (c : ClassFile) :
    (∀ failure, repair (.signatureOnly restore) lookup c = .error failure →
      repair (.both restore) lookup c = .error failure ∧
        afterRepair c (repair (.both restore) lookup c) = c) ∧
    (∀ first between, repair (.signatureOnly restore) lookup c = .ok (first, between) →
      ∃ second last, repair (.componentsOnly restore) lookup between = .ok (second, last) ∧
        repair (.both restore) lookup c =
          .ok ({ second with signature := first.signature }, last)) ∧
    ∃ first between, repair (.componentsOnly restore) lookup c = .ok (first, between) ∧
      ((∃ survey, Survey.ofClass between = .ok survey) ↔
        ∃ survey, Survey.ofClass c = .ok survey) ∧
      ∀ second last outcome after,
        repair (.signatureOnly restore) lookup between = .ok (second, last) →
        repair (.both restore) lookup c = .ok (outcome, after) →
        last = { after with signature := last.signature } ∧
          (second.signature.isSome = true ↔ outcome.signature.isSome = true) ∧
          ∀ text other, second.signature = some text → outcome.signature = some other →
            ∀ n, Declares .classKind text n ↔ Declares .classKind other n := by
  have hboth := repair_both_eq restore lookup c
  refine ⟨fun failure h => ?_, fun first between h => ?_, ?_⟩
  · rw [h] at hboth
    rw [hboth]
    exact ⟨rfl, rfl⟩
  · obtain ⟨second, last, hlast⟩ := exists_repair_componentsOnly restore lookup between
    refine ⟨second, last, hlast, ?_⟩
    rw [hboth, h]
    simp only [bind, Except.bind, hlast]
  · cases hr : c.isRecord with
    | false =>
        have hpass : ∀ settings, repair settings lookup c = .ok ({}, c) := fun settings =>
          repair_of_not_isRecord hr
        refine ⟨{}, c, hpass _, Iff.rfl, fun second last outcome after hsecond hafter => ?_⟩
        rw [hpass] at hsecond hafter
        cases hsecond
        cases hafter
        exact ⟨rfl, Iff.rfl, fun _ _ h => nomatch h⟩
    | true =>
        refine ⟨_, _, repair_componentsOnly hr, exists_survey_apply_iff rfl rfl,
          fun second last outcome after hsecond hafter => ?_⟩
        have hbetween : ((Plan.writing (.both restore) c none).apply c).isRecord = true := hr
        obtain ⟨x, hx, rfl, rfl⟩ := exists_signature_of_repair hbetween hsecond
        obtain ⟨y, hy, rfl, rfl⟩ := exists_signature_of_repair hr hafter
        have hcomponents : (Plan.writing (.both restore) c none).components =
            Plan.missingComponents (.both restore) c := rfl
        exact ⟨rfl, missingSignature_apply hcomponents rfl rfl hx hy⟩

/-- A record whose constant of the type `A` comes before the field of the type `B` that backs its
only component. -/
def constantFirst : ClassFile :=
  { ClassFile.bare "p/Holder" (some recordBase) with
    fields := [
      { access := AccessFlags.accStatic ||| AccessFlags.accFinal
        name := "DEFAULT"
        descriptor := "Ljava/lang/Object;"
        signature := some "TA;" },
      { access := AccessFlags.accPrivate ||| AccessFlags.accFinal
        name := "value"
        descriptor := "Ljava/lang/Object;"
        signature := some "TB;" }] }

/-- The component that the first pass puts back brings `B` forward, so the two ways write the same
names in different orders. -/
theorem repair_in_steps_constantFirst : ∃ first between second last outcome after,
    repair (.componentsOnly true) (fun _ => .error ⟨"offline"⟩) constantFirst =
      .ok (first, between) ∧
    repair (.signatureOnly true) (fun _ => .error ⟨"offline"⟩) between = .ok (second, last) ∧
    repair (.both true) (fun _ => .error ⟨"offline"⟩) constantFirst = .ok (outcome, after) ∧
    second.signature = some "<B:Ljava/lang/Object;A:Ljava/lang/Object;>Ljava/lang/Record;" ∧
    outcome.signature = some "<A:Ljava/lang/Object;B:Ljava/lang/Object;>Ljava/lang/Record;" ∧
    last = { after with signature := last.signature } ∧
    ∀ n, Declares .classKind "<B:Ljava/lang/Object;A:Ljava/lang/Object;>Ljava/lang/Record;" n ↔
      Declares .classKind "<A:Ljava/lang/Object;B:Ljava/lang/Object;>Ljava/lang/Record;" n := by
  obtain ⟨-, -, first, between, hfirst, -, hboth⟩ :=
    repair_in_steps true (fun _ => .error ⟨"offline"⟩) constantFirst
  have hsecond : ∃ second last,
      repair (.signatureOnly true) (fun _ => .error ⟨"offline"⟩) between = .ok (second, last) ∧
        second.signature =
          some "<B:Ljava/lang/Object;A:Ljava/lang/Object;>Ljava/lang/Record;" := by
    cases hfirst
    exact ⟨_, _, rfl, rfl⟩
  obtain ⟨second, last, hlast, htext⟩ := hsecond
  obtain ⟨hrest, -, hnames⟩ := hboth second last _ _ hlast rfl
  exact ⟨first, between, second, last, _, _, hfirst, hlast, rfl, htext, rfl, hrest,
    hnames _ _ htext rfl⟩

end RecordRepair
