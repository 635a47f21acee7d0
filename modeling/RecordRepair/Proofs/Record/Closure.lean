import RecordRepair.Proofs.Record.Declaration
import RecordRepair.Proofs.Record.Positions
import RecordRepair.Proofs.Record.Survey

/-! # Every type variable is declared after a repair

A repair that writes class signatures leaves no type variable undeclared.  Either it found them all
declared, or it wrote a signature that declares whatever it found.

* `missingSignature_spec`: the signature that a plan leaves behind declares all type variables that
  were discovered.
* `exists_member_of_apply`: the members of the repaired class say what members of the class said,
  components from fields among them.
* `exists_plan_of_repair`: a repair of a record carries out a plan, which fixes all but the
  signature by the settings (`Plan.writing`).
* `repair_declares_variables` puts the two together. -/

namespace RecordRepair

open Signature

variable {settings : Settings} {lookup : Lookup} {c after : ClassFile} {outcome : Outcome}
  {plan : Plan} {text : String}

/-! ### The signature of the repaired class -/

theorem Survey.needsDeclaration_eq_false_iff {survey : Survey} :
    survey.needsDeclaration = false ↔ ∀ n ∈ survey.bindings.names, n ∈ survey.declared := by
  simp [needsDeclaration, List.any_eq_false]

theorem Survey.declaredBy_of_declare {survey : Survey} (hsurvey : ofClass c = .ok survey)
    (h : declare lookup c survey.bindings = .ok text) :
    declaredBy (some text) = survey.bindings.names := by
  obtain ⟨hn, hp⟩ := isPlain hsurvey
  obtain ⟨_, _, -, hw⟩ := exists_of_declare h
  have hd := declaredParameters_of_declare hn hp h
  rw [declaredParameters_of_walk hw] at hd
  exact Except.ok.inj hd

/-- A signature is written exactly if the survey asks for one. -/
theorem missingSignature_cases {signature : Option String} (hs : settings.patchSignature = true)
    (h : Plan.missingSignature settings lookup c = .ok signature) :
    ∃ survey, Survey.ofClass c = .ok survey ∧
      ((survey.needsDeclaration = true ∧ ∃ text, signature = some text ∧
        declare lookup c survey.bindings = .ok text) ∨
      (survey.needsDeclaration = false ∧ signature = none)) := by
  rw [Plan.missingSignature, if_pos hs] at h
  obtain ⟨survey, hsurvey, h⟩ := exists_of_bind_eq_ok h
  refine ⟨survey, hsurvey, ?_⟩
  split at h
  · next hneeds =>
      cases hd : declare lookup c survey.bindings with
      | error failure =>
          rw [hd] at h
          cases h
      | ok text =>
          rw [hd] at h
          obtain rfl := Except.ok.inj h
          exact Or.inl ⟨hneeds, text, rfl, rfl⟩
  · next hneeds =>
      obtain rfl := Except.ok.inj h
      exact Or.inr ⟨Bool.eq_false_iff.2 hneeds, rfl⟩

theorem exists_declare_of_missingSignature
    (h : Plan.missingSignature settings lookup c = .ok (some text)) :
    ∃ survey, Survey.ofClass c = .ok survey ∧ survey.needsDeclaration = true ∧
      declare lookup c survey.bindings = .ok text := by
  cases hs : settings.patchSignature with
  | false =>
      rw [Plan.missingSignature, hs] at h
      cases h
  | true =>
      obtain ⟨survey, hsurvey, hcases⟩ := missingSignature_cases hs h
      rcases hcases with ⟨hneeds, text', ht, hd⟩ | ⟨-, hnone⟩
      · obtain rfl := Option.some.inj ht
        exact ⟨survey, hsurvey, hneeds, hd⟩
      · cases hnone

/-- A repair discovers the type variables of a class and leaves a signature that declares them.  It
is either the one that the class had, or a new one. -/
theorem missingSignature_spec {signature : Option String} (hs : settings.patchSignature = true)
    (h : Plan.missingSignature settings lookup c = .ok signature) :
    ∃ survey, Survey.ofClass c = .ok survey ∧
      (∀ n ∈ survey.bindings.names, n ∈ declaredBy (signature <|> c.signature)) ∧
      (∀ text, (signature <|> c.signature) = some text → (walk .classKind text).error = none) ∧
      (signature = none ∨ ∃ text, signature = some text ∧
        declare lookup c survey.bindings = .ok text) := by
  obtain ⟨survey, hsurvey, hcases⟩ := missingSignature_cases hs h
  refine ⟨survey, hsurvey, ?_⟩
  rcases hcases with ⟨-, text, rfl, hd⟩ | ⟨hneeds, rfl⟩
  · -- a type variable is not declared
    obtain ⟨_, _, -, hw⟩ := exists_of_declare hd
    have hdecl := Survey.declaredBy_of_declare hsurvey hd
    have hsome : (some text <|> c.signature) = some text := rfl
    rw [hsome]
    refine ⟨fun n hm => by rw [hdecl]; exact hm, fun t ht => ?_, Or.inr ⟨text, rfl, hd⟩⟩
    obtain rfl := Option.some.inj ht
    exact hw
  · have hall := Survey.needsDeclaration_eq_false_iff.1 hneeds
    obtain ⟨hread, hd, -⟩ := Survey.ofClass_spec hsurvey
    rw [hd] at hall
    exact ⟨hall, fun text ht => (hread _ List.mem_cons_self text ht).2, Or.inl rfl⟩

/-! ### The members of the repaired class -/

namespace Signed

/-- Two parts have the same signature, and their descriptors say the same. -/
def SaysSame (p q : Signed) : Prop :=
  p.kind = q.kind ∧ p.evidence = q.evidence ∧ p.signature = q.signature

theorem SaysSame.isReadable {p q : Signed} (h : p.SaysSame q) (hq : q.IsReadable) :
    p.IsReadable := by
  obtain ⟨hk, he, hs⟩ := h
  rw [IsReadable, hk, he, hs]
  exact hq

theorem SaysSame.isFree {p q : Signed} {n : String} (h : p.SaysSame q) (hp : p.IsFree n) :
    q.IsFree n := by
  obtain ⟨hk, he, hs⟩ := h
  rw [IsFree, hk, hs] at hp
  exact hp

theorem saysSame_ofComponent (field : Field) :
    (ofComponent (Component.ofField field)).SaysSame (ofField field) := ⟨rfl, rfl, rfl⟩

end Signed

theorem Component.mem_of_mem_distinct {component : Component} {list : List Component}
    (h : component ∈ Component.distinct list) : component ∈ list := by
  induction list with
  | nil => cases h
  | cons first rest ih =>
      rw [distinct] at h
      rcases List.mem_cons.1 h with rfl | h
      · exact List.mem_cons_self
      · exact List.mem_cons_of_mem _ (ih (List.mem_filter.1 h).1)

theorem Plan.map_ofField_newFields (plan : Plan) (c : ClassFile) :
    (plan.newFields c).map Signed.ofField = c.fields.map Signed.ofField :=
  map_newFields (fun _ => rfl) plan c

theorem Plan.eq_synthesizedComponents {list : List Component}
    (h : Plan.missingComponents settings c = some list) :
    list = c.synthesizedComponents ∧ list ≠ [] := by
  rw [missingComponents] at h
  split at h
  · obtain ⟨hs, hne⟩ := Option.filter_eq_some_iff.1 h
    exact ⟨(Option.some.inj hs).symm, by simpa using hne⟩
  · cases h

theorem ClassFile.exists_field_of_mem_synthesizedComponents {component : Component}
    (h : component ∈ c.synthesizedComponents) :
    ∃ field ∈ c.fields, component = Component.ofField field := by
  obtain ⟨field, hf, rfl⟩ := List.mem_map.1 (Component.mem_of_mem_distinct h)
  exact ⟨field, (List.mem_filter.1 hf).1, rfl⟩

theorem exists_member_of_apply (hc : plan.components = Plan.missingComponents settings c) :
    ∀ p ∈ (plan.apply c).members, ∃ q ∈ c.members, p.SaysSame q := by
  intro p hp
  rw [ClassFile.members, List.mem_append, List.mem_append] at hp
  rcases hp with (hp | hp) | hp
  · obtain ⟨component, hm, rfl⟩ := List.mem_map.1 hp
    rw [Plan.apply] at hm
    cases hl : plan.components with
    | none =>
        rw [hl] at hm
        refine ⟨Signed.ofComponent component, ?_, rfl, rfl, rfl⟩
        exact List.mem_append_left _ (List.mem_append_left _ (List.mem_map_of_mem hm))
    | some list =>
        rw [hl] at hm
        obtain ⟨rfl, -⟩ := Plan.eq_synthesizedComponents (hc.symm.trans hl)
        obtain ⟨field, hf, rfl⟩ := ClassFile.exists_field_of_mem_synthesizedComponents hm
        refine ⟨Signed.ofField field, ?_, Signed.saysSame_ofComponent field⟩
        exact List.mem_append_left _ (List.mem_append_right _ (List.mem_map_of_mem hf))
  · rw [Plan.apply, Plan.map_ofField_newFields] at hp
    exact ⟨p, List.mem_append_left _ (List.mem_append_right _ hp), rfl, rfl, rfl⟩
  · exact ⟨p, List.mem_append_right _ hp, rfl, rfl, rfl⟩

/-! ### Plans -/

theorem repair_of_not_isRecord (hr : c.isRecord = false) :
    repair settings lookup c = .ok ({}, c) := by
  rw [repair, hr]
  rfl

/-- The plan that writes a class signature, together with all else that the settings ask for. -/
def Plan.writing (settings : Settings) (c : ClassFile) (signature : Option String) : Plan where
  components := missingComponents settings c
  signature := signature
  privateFields := exposedFields settings c

/-- The repair of a record finds out the signature first, and the rest cannot fail. -/
theorem repair_of_isRecord (hr : c.isRecord = true) : repair settings lookup c =
    (Plan.missingSignature settings lookup c).map fun signature =>
      ((Plan.writing settings c signature).outcome,
        (Plan.writing settings c signature).apply c) := by
  rw [repair, if_pos hr, Plan.ofRecord]
  cases Plan.missingSignature settings lookup c <;> rfl

theorem exists_signature_of_repair (hr : c.isRecord = true)
    (h : repair settings lookup c = .ok (outcome, after)) :
    ∃ signature, Plan.missingSignature settings lookup c = .ok signature ∧
      outcome = (Plan.writing settings c signature).outcome ∧
        after = (Plan.writing settings c signature).apply c := by
  rw [repair_of_isRecord hr] at h
  cases hs : Plan.missingSignature settings lookup c with
  | error failure =>
      rw [hs] at h
      cases h
  | ok signature =>
      rw [hs] at h
      cases h
      exact ⟨signature, rfl, rfl, rfl⟩

theorem exists_plan_of_repair (hr : c.isRecord = true)
    (h : repair settings lookup c = .ok (outcome, after)) : ∃ plan : Plan,
      Plan.missingSignature settings lookup c = .ok plan.signature ∧
        plan.components = Plan.missingComponents settings c ∧
        plan.privateFields = Plan.exposedFields settings c ∧
        outcome = plan.outcome ∧ after = plan.apply c := by
  obtain ⟨signature, hs, ho, ha⟩ := exists_signature_of_repair hr h
  exact ⟨.writing settings c signature, hs, rfl, rfl, ho, ha⟩

/-! ### Closure -/

/-- A repair that writes a signature has found a type variable that was not declared. -/
theorem exists_declare_of_repair (h : repair settings lookup c = .ok (outcome, after))
    (ht : outcome.signature = some text) : ∃ survey, Survey.ofClass c = .ok survey ∧
      survey.needsDeclaration = true ∧ declare lookup c survey.bindings = .ok text := by
  cases hr : c.isRecord with
  | false =>
      rw [repair_of_not_isRecord hr] at h
      cases h
      cases ht
  | true =>
      obtain ⟨plan, hsig, -, -, rfl, -⟩ := exists_plan_of_repair hr h
      have hp : plan.signature = some text := ht
      exact exists_declare_of_missingSignature (hp ▸ hsig)

/-- **Every type variable is declared after a repair.**  A type variable of a component, a field or
a method is declared by the signature that it stands in or by the class; a class without a signature
leaves it to the former. -/
theorem repair_declares_variables (hr : c.isRecord = true) (hs : settings.patchSignature = true)
    (h : repair settings lookup c = .ok (outcome, after)) :
    (∀ p ∈ after.members, ∀ text, p.signature = some text →
      ∀ n, .typeVariable n ∈ (walk p.kind text).events → Declares p.kind text n ∨
        ∃ signature, after.signature = some signature ∧ Declares .classKind signature n) ∧
    (after.signature = none → ∀ p ∈ after.members, ∀ text, p.signature = some text →
      ∀ n, .typeVariable n ∈ (walk p.kind text).events → Declares p.kind text n) := by
  obtain ⟨plan, hsig, hcomp, -, -, rfl⟩ := exists_plan_of_repair hr h
  obtain ⟨survey, hsurvey, hall, hwalk, -⟩ := missingSignature_spec hs hsig
  obtain ⟨hread, -, hnames⟩ := Survey.ofClass_spec hsurvey
  have hfree : ∀ p ∈ (plan.apply c).members, ∀ text, p.signature = some text →
      ∀ n, .typeVariable n ∈ (walk p.kind text).events → Declares p.kind text n ∨
        n ∈ declaredBy (plan.apply c).signature := by
    intro p hp text ht n hn
    obtain ⟨q, hq, hsame⟩ := exists_member_of_apply hcomp p hp
    have hq' : q ∈ Signed.ofClass c :: c.members := List.mem_cons_of_mem _ hq
    have hw := (hsame.isReadable (hread q hq') text ht).2
    by_cases hd : Declares p.kind text n
    · exact Or.inl hd
    · have hf : p.IsFree n := ⟨text, ht, hn, fun hm => hd ((declares_iff hw).2 hm)⟩
      exact Or.inr (hall n ((hnames n).2 ⟨q, hq', hsame.isFree hf⟩))
  have hclass : ∀ n ∈ declaredBy (plan.apply c).signature,
      ∃ signature, (plan.apply c).signature = some signature ∧
        Declares .classKind signature n := by
    intro n hn
    cases hcs : (plan.apply c).signature with
    | none =>
        rw [hcs] at hn
        cases hn
    | some signature =>
        rw [hcs] at hn
        exact ⟨signature, rfl, _, declaredParameters_of_walk (hwalk signature hcs), hn⟩
  refine ⟨fun p hp text ht n hn => (hfree p hp text ht n hn).imp_right (hclass n), ?_⟩
  intro hnone p hp text ht n hn
  refine (hfree p hp text ht n hn).resolve_right fun hd => ?_
  rw [hnone] at hd
  cases hd

/-- A record of one component of the type `T` that has lost its components and its signature. -/
def strippedBox : ClassFile :=
  { ClassFile.bare "p/Box" (some recordBase) with
    fields := [{
      access := AccessFlags.accPublic ||| AccessFlags.accFinal
      name := "value"
      descriptor := "Ljava/lang/Object;"
      signature := some "TT;" }] }

theorem repair_declares_variables_strippedBox :
    ∃ outcome after, repair {} (fun _ => .error ⟨"offline"⟩) strippedBox = .ok (outcome, after) ∧
      after.signature = some "<T:Ljava/lang/Object;>Ljava/lang/Record;" ∧
      ∀ p ∈ after.members, ∀ text, p.signature = some text →
        ∀ n, .typeVariable n ∈ (walk p.kind text).events → Declares p.kind text n ∨
          ∃ signature, after.signature = some signature ∧ Declares .classKind signature n := by
  have h : repair {} (fun _ => .error ⟨"offline"⟩) strippedBox = .ok
      ({ isRecord := true, componentsAdded := 1,
         signature := some "<T:Ljava/lang/Object;>Ljava/lang/Record;" },
       { strippedBox with
         signature := some "<T:Ljava/lang/Object;>Ljava/lang/Record;"
         components := some [⟨"value", "Ljava/lang/Object;", some "TT;"⟩] }) := by rfl
  exact ⟨_, _, h, rfl, (repair_declares_variables (by decide) rfl h).1⟩

end RecordRepair
