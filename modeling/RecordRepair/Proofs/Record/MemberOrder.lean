import RecordRepair.Proofs.Record.Composition

/-! # The order of members

Bindings keep the order of discovery and the first evidence for a bound, so they depend on the order
in which members are collected.  What does not depend on it is here.

* `Bindings.ofOccurrences` of the same occurrences in another order, and with other repetitions,
  binds the same names, and has a bound for the same ones (`perm_names_of_mem_iff`,
  `exists_erased_iff_of_mem_iff`).  If there is no choice of evidence, the bounds are the same as
  well (`get?_eq_of_mem_iff`).
* `ClassFile.IsReordering`: the components, fields and methods of a class in another order.
* `discovery_order_free`: members in another order, and classes with them. -/

namespace RecordRepair

open Signature

variable {settings : Settings} {lookup other : Lookup} {c d after after' : ClassFile}
  {outcome outcome' : Outcome} {found others : List Occurrence} {n e : String}

/-! ### Evidence in any order -/

theorem exists_firstEvidence?_iff :
    (∃ e, firstEvidence? found n = some e) ↔ ∃ e, ⟨n, some e⟩ ∈ found := by
  rw [← Option.isSome_iff_exists, firstEvidence?, List.findSome?_isSome_iff]
  constructor
  · rintro ⟨⟨name, evidence⟩, ho, he⟩
    by_cases hn : name = n
    · rw [if_pos hn] at he
      obtain ⟨e, rfl⟩ := Option.isSome_iff_exists.1 he
      exact ⟨e, hn ▸ ho⟩
    · rw [if_neg hn] at he
      cases he
  · rintro ⟨e, he⟩
    exact ⟨_, he, by rw [if_pos rfl]; rfl⟩

theorem mem_of_firstEvidence? (h : firstEvidence? found n = some e) : ⟨n, some e⟩ ∈ found := by
  obtain ⟨⟨name, evidence⟩, ho, he⟩ := List.exists_of_findSome?_eq_some h
  by_cases hn : name = n
  · rw [if_pos hn] at he
    have he' : evidence = some e := he
    rw [← hn, ← he']
    exact ho
  · rw [if_neg hn] at he
    cases he

namespace Bindings

variable (h : ∀ o, o ∈ found ↔ o ∈ others)

include h

theorem mem_map_name_iff : n ∈ found.map Occurrence.name ↔ n ∈ others.map Occurrence.name := by
  simp only [List.mem_map, h]

theorem perm_names_of_mem_iff : (ofOccurrences found).names.Perm (ofOccurrences others).names := by
  rw [names_ofOccurrences, names_ofOccurrences]
  refine (List.perm_ext_iff_of_nodup (nodup_eraseDups _) (nodup_eraseDups _)).2 fun n => ?_
  rw [List.mem_eraseDups, List.mem_eraseDups, mem_map_name_iff h]

theorem exists_erased_iff_of_mem_iff : (∃ e, (ofOccurrences found).get? n = some (.erased e)) ↔
    ∃ e, (ofOccurrences others).get? n = some (.erased e) := by
  simp only [get?_eq_erased_iff]
  rw [exists_firstEvidence?_iff, exists_firstEvidence?_iff]
  simp only [h]

/-- A bound for which there is no choice of evidence does not depend on the order. -/
theorem get?_eq_of_mem_iff (hone : ∀ e e', ⟨n, some e⟩ ∈ found → ⟨n, some e'⟩ ∈ found → e = e') :
    (ofOccurrences found).get? n = (ofOccurrences others).get? n := by
  have hfirst : firstEvidence? found n = firstEvidence? others n := by
    have hiff := @exists_firstEvidence?_iff found n
    have hiff' := @exists_firstEvidence?_iff others n
    cases hf : firstEvidence? found n with
    | none =>
        symm
        rw [Option.eq_none_iff_forall_ne_some]
        intro e ho
        obtain ⟨e', he'⟩ := hiff.2 ⟨e, (h _).2 (mem_of_firstEvidence? ho)⟩
        rw [hf] at he'
        cases he'
    | some e =>
        have he := mem_of_firstEvidence? hf
        obtain ⟨e', ho⟩ := hiff'.2 ⟨e, (h _).1 he⟩
        rw [ho, hone e e' he ((h _).2 (mem_of_firstEvidence? ho))]
  rw [get?_ofOccurrences, get?_ofOccurrences, hfirst]
  simp only [mem_map_name_iff h]

end Bindings

/-! ### Classes with their members in another order -/

/-- Two classes differ at most in the order of their members.  A list of components that is missing
counts as an empty one. -/
structure ClassFile.IsReordering (c d : ClassFile) : Prop where
  name : d.name = c.name
  access : d.access = c.access
  superclass : d.superclass = c.superclass
  interfaces : d.interfaces = c.interfaces
  signature : d.signature = c.signature
  components : (d.components.getD []).Perm (c.components.getD [])
  fields : d.fields.Perm c.fields
  methods : d.methods.Perm c.methods

namespace ClassFile.IsReordering

variable (h : c.IsReordering d)

include h

theorem parts_perm : d.parts.Perm c.parts := by
  have hclass : Signed.ofClass d = Signed.ofClass c := by
    rw [Signed.ofClass, Signed.ofClass, h.signature]
  rw [parts, parts, members, members, hclass]
  exact .cons _ (((h.components.map _).append (h.fields.map _)).append (h.methods.map _))

theorem exists_survey_iff :
    (∃ survey, Survey.ofClass c = .ok survey) ↔ ∃ survey, Survey.ofClass d = .ok survey := by
  rw [Survey.exists_ofClass_iff, Survey.exists_ofClass_iff]
  simp only [h.parts_perm.mem_iff]

theorem exists_isFree_iff (n : String) :
    (∃ p ∈ d.parts, p.IsFree n) ↔ ∃ p ∈ c.parts, p.IsFree n := by
  simp only [h.parts_perm.mem_iff]

theorem needsDeclaration_eq {survey survey' : Survey} (hc : Survey.ofClass c = .ok survey)
    (hd : Survey.ofClass d = .ok survey') : survey.needsDeclaration = survey'.needsDeclaration := by
  obtain ⟨-, hdeclared, hnames⟩ := Survey.ofClass_spec hc
  obtain ⟨-, hdeclared', hnames'⟩ := Survey.ofClass_spec hd
  rw [Bool.eq_iff_iff, ← not_iff_not, Bool.not_eq_true, Bool.not_eq_true,
    Survey.needsDeclaration_eq_false_iff, Survey.needsDeclaration_eq_false_iff, hdeclared,
    hdeclared', h.signature]
  refine forall_congr' fun n => imp_congr_left ?_
  rw [hnames, hnames']
  exact (h.exists_isFree_iff n).symm

theorem repair_agree (hr : c.isRecord = true)
    (hc : repair settings lookup c = .ok (outcome, after))
    (hd : repair settings other d = .ok (outcome', after')) :
    (outcome.signature.isSome = true ↔ outcome'.signature.isSome = true) ∧
      ∀ s t, outcome.signature = some s → outcome'.signature = some t →
        ∀ n, Declares .classKind s n ↔ Declares .classKind t n := by
  have hr' : d.isRecord = true := by rw [isRecord, h.superclass]; exact hr
  obtain ⟨plan, hplan, -, -, rfl, -⟩ := exists_plan_of_repair hr hc
  obtain ⟨plan', hplan', -, -, rfl, -⟩ := exists_plan_of_repair hr' hd
  show (plan.signature.isSome = true ↔ plan'.signature.isSome = true) ∧
    ∀ s t, plan.signature = some s → plan'.signature = some t →
      ∀ n, Declares .classKind s n ↔ Declares .classKind t n
  by_cases hp : settings.patchSignature = true
  · exact missingSignature_agree h.signature.symm (fun n => (h.exists_isFree_iff n).symm) hp hplan
      hplan'
  · rw [Plan.missingSignature, if_neg hp] at hplan hplan'
    rw [← Except.ok.inj hplan, ← Except.ok.inj hplan']
    exact ⟨Iff.rfl, fun _ _ hs => by cases hs⟩

end ClassFile.IsReordering

/-! ### What is discovered -/

/-- **What is discovered does not depend on the order of members.**  Two lists of the same members,
in any order and with any repetitions, bind the same names, and the same ones have a bound.  The
bound of a name is the same if no two of its occurrences stand for different erased types.  So a
record with its members in another order can be surveyed alike, needs a new signature alike, and the
new signatures declare the same names. -/
theorem discovery_order_free :
    (∀ members others : List Member, (∀ m, m ∈ members ↔ m ∈ others) →
      (Bindings.collectAll members).names.Perm (Bindings.collectAll others).names ∧
      (∀ n, (∃ e, (Bindings.collectAll members).get? n = some (.erased e)) ↔
        ∃ e, (Bindings.collectAll others).get? n = some (.erased e)) ∧
      ∀ n, (∀ e e', ⟨n, some e⟩ ∈ members.flatMap Member.occurrences →
          ⟨n, some e'⟩ ∈ members.flatMap Member.occurrences → e = e') →
        (Bindings.collectAll members).get? n = (Bindings.collectAll others).get? n) ∧
    ∀ c d : ClassFile, c.isRecord = true → c.IsReordering d →
      ((∃ survey, Survey.ofClass c = .ok survey) ↔ ∃ survey, Survey.ofClass d = .ok survey) ∧
      (∀ survey survey', Survey.ofClass c = .ok survey → Survey.ofClass d = .ok survey' →
        survey.needsDeclaration = survey'.needsDeclaration) ∧
      ∀ settings lookup other outcome outcome' after after',
        repair settings lookup c = .ok (outcome, after) →
        repair settings other d = .ok (outcome', after') →
          (outcome.signature.isSome = true ↔ outcome'.signature.isSome = true) ∧
          ∀ s t, outcome.signature = some s → outcome'.signature = some t →
            ∀ n, Declares .classKind s n ↔ Declares .classKind t n := by
  constructor
  · intro members others hm
    have hsame : ∀ o, o ∈ members.flatMap Member.occurrences ↔
        o ∈ others.flatMap Member.occurrences := by
      intro o
      simp only [List.mem_flatMap, hm]
    rw [Bindings.collectAll_eq_ofOccurrences, Bindings.collectAll_eq_ofOccurrences]
    exact ⟨Bindings.perm_names_of_mem_iff hsame,
      fun _ => Bindings.exists_erased_iff_of_mem_iff hsame,
      fun _ => Bindings.get?_eq_of_mem_iff hsame⟩
  · intro c d hr h
    exact ⟨h.exists_survey_iff, fun _ _ => h.needsDeclaration_eq,
      fun _ _ _ _ _ _ _ => h.repair_agree hr⟩

/-- The fields of `strippedPair` the other way round. -/
def swappedPair : ClassFile := { strippedPair with fields := strippedPair.fields.reverse }

theorem repair_swappedPair : ∃ after after' outcome outcome',
    repair {} (fun _ => .error ⟨"offline"⟩) strippedPair = .ok (outcome, after) ∧
      repair {} (fun _ => .error ⟨"offline"⟩) swappedPair = .ok (outcome', after') ∧
      outcome.signature = some "<A:Ljava/lang/Object;B:Ljava/lang/Object;>Ljava/lang/Record;" ∧
      outcome'.signature = some "<B:Ljava/lang/Object;A:Ljava/lang/Object;>Ljava/lang/Record;" :=
  ⟨_, _, _, _, rfl, rfl, rfl, rfl⟩

/-- The type parameters change places with the fields.  The bound of `T` is found in whichever order
its two members come. -/
theorem discovery_order_free_swappedPair :
    (∀ n, Declares .classKind "<A:Ljava/lang/Object;B:Ljava/lang/Object;>Ljava/lang/Record;" n ↔
      Declares .classKind "<B:Ljava/lang/Object;A:Ljava/lang/Object;>Ljava/lang/Record;" n) ∧
    (Bindings.collectAll [⟨"TT;", .fieldKind, .unknown⟩,
        ⟨"TT;", .fieldKind, .field (.object "p/A")⟩]).get? "T" =
      (Bindings.collectAll [⟨"TT;", .fieldKind, .field (.object "p/A")⟩,
        ⟨"TT;", .fieldKind, .unknown⟩, ⟨"TT;", .fieldKind, .field (.object "p/A")⟩]).get? "T" := by
  obtain ⟨hmembers, hclasses⟩ := discovery_order_free
  constructor
  · have hswapped : strippedPair.IsReordering swappedPair :=
      { name := rfl, access := rfl, superclass := rfl, interfaces := rfl, signature := rfl
        components := .rfl, fields := List.reverse_perm _, methods := .rfl }
    obtain ⟨after, after', outcome, outcome', h, h', hs, hs'⟩ := repair_swappedPair
    obtain ⟨-, -, hrepair⟩ := hclasses _ _ (by decide) hswapped
    exact (hrepair {} _ _ _ _ _ _ h h').2 _ _ hs hs'
  · have hoccurrences : [Member.mk "TT;" .fieldKind .unknown,
        ⟨"TT;", .fieldKind, .field (.object "p/A")⟩].flatMap Member.occurrences =
          [⟨"T", none⟩, ⟨"T", some "p/A"⟩] := by rfl
    refine (hmembers _ _ fun m => ?_).2.2 "T" ?_
    · simp only [List.mem_cons, List.not_mem_nil, or_false]
      tauto
    · rw [hoccurrences]
      intro e e' he he'
      simp only [List.mem_cons, Occurrence.mk.injEq, reduceCtorEq, and_false, Option.some.injEq,
        true_and, List.not_mem_nil, or_false, false_or] at he he'
      rw [he, he']

end RecordRepair
