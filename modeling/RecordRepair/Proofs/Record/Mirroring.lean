import RecordRepair.Proofs.Record.Frame

/-! # Components mirror fields

Components that are put back are those of the final instance fields, one for each pair of a name and
a descriptor.

* `Component.distinct` keeps the first component of each pair, at its place.
* `ClassFile.IsMirroredBy`: what the list of components has to do with the fields of a class.
* `ClassFile.isMirroredBy_synthesizedComponents`: the list that is put together does so.
* `components_mirror_fields` adds that a list which is that of the fields comes back after it was
  lost. -/

namespace RecordRepair

variable {settings : Settings} {lookup : Lookup} {c after : ClassFile} {outcome : Outcome}
  {list : List Component}

/-- What components are told apart by. -/
def Component.key (component : Component) : String × String :=
  (component.name, component.descriptor)

/-- Whether a field backs the component of a name and a descriptor.  Of its flags, only that it is
final and not static matters. -/
def Field.backs (field : Field) (key : String × String) : Bool :=
  (field.access.has .accFinal && !field.access.has .accStatic) &&
    (field.name, field.descriptor) == key

/-- A list of components stands for the fields that back them. -/
structure ClassFile.IsMirroredBy (c : ClassFile) (list : List Component) : Prop where
  nodup : (list.map Component.key).Nodup
  mem_iff : ∀ name descriptor, (name, descriptor) ∈ list.map Component.key ↔
    ∃ field ∈ c.fields, field.name = name ∧ field.descriptor = descriptor ∧
      field.access.has .accFinal = true ∧ field.access.has .accStatic = false
  /-- A component is taken from the first field that backs it. -/
  first : ∀ component ∈ list,
    (c.fields.find? (·.backs component.key)).map Component.ofField = some component
  /-- Components stand in the order in which the first fields that back them are declared. -/
  order : list.Pairwise fun a b =>
    c.fields.findIdx (·.backs a.key) < c.fields.findIdx (·.backs b.key)

/-! ### Distinct components -/

namespace Component

variable {a b component : Component}

theorem sameKey_eq : a.sameKey b = (b.key == a.key) := by
  rw [Bool.eq_iff_iff, sameKey, Bool.and_eq_true, beq_iff_eq, beq_iff_eq, beq_iff_eq, key, key,
    Prod.mk.injEq, eq_comm, @eq_comm _ a.descriptor]

theorem mem_distinct_cons :
    b ∈ distinct (a :: list) ↔ b = a ∨ b ∈ distinct list ∧ b.key ≠ a.key := by
  rw [distinct, List.mem_cons, List.mem_filter, sameKey_eq, Bool.not_eq_true', beq_eq_false_iff_ne]

theorem nodup_distinct : ((distinct list).map key).Nodup := by
  induction list with
  | nil => exact List.nodup_nil
  | cons a rest ih =>
      rw [distinct, List.map_cons, List.nodup_cons]
      constructor
      · rw [List.mem_map]
        rintro ⟨b, hb, he⟩
        rw [List.mem_filter, sameKey_eq, he, beq_self_eq_true] at hb
        cases hb.2
      · exact ih.sublist (List.filter_sublist.map key)

theorem mem_keys_distinct {k : String × String} :
    k ∈ (distinct list).map key ↔ k ∈ list.map key := by
  induction list with
  | nil => exact Iff.rfl
  | cons a rest ih =>
      rw [List.map_cons, List.mem_cons, ← ih]
      simp only [List.mem_map, mem_distinct_cons]
      constructor
      · rintro ⟨b, rfl | ⟨hb, -⟩, rfl⟩
        · exact .inl rfl
        · exact .inr ⟨b, hb, rfl⟩
      · rintro (rfl | ⟨b, hb, rfl⟩)
        · exact ⟨a, .inl rfl, rfl⟩
        · by_cases he : b.key = a.key
          · exact ⟨a, .inl rfl, he.symm⟩
          · exact ⟨b, .inr ⟨hb, he⟩, rfl⟩

/-- Of the components with one name and one descriptor, the first is kept. -/
theorem find?_of_mem_distinct (h : component ∈ distinct list) :
    list.find? (·.key == component.key) = some component := by
  induction list with
  | nil => cases h
  | cons a rest ih =>
      obtain rfl | ⟨hr, hne⟩ := mem_distinct_cons.1 h
      · exact List.find?_cons_of_pos (beq_self_eq_true _)
      · rw [List.find?_cons_of_neg (by rw [beq_iff_eq]; exact hne.symm)]
        exact ih hr

theorem pairwise_distinct (list : List Component) : (distinct list).Pairwise fun a b =>
    list.findIdx (·.key == a.key) < list.findIdx (·.key == b.key) := by
  induction list with
  | nil => exact .nil
  | cons first rest ih =>
      have hbehind : ∀ b ∈ (distinct rest).filter fun d => !first.sameKey d,
          (first :: rest).findIdx (·.key == b.key) = rest.findIdx (·.key == b.key) + 1 := by
        intro b hb
        rw [List.mem_filter, sameKey_eq, Bool.not_eq_true'] at hb
        rw [List.findIdx_cons, Bool.beq_comm, hb.2, cond_false]
      rw [distinct, List.pairwise_cons]
      constructor
      · intro b hb
        rw [hbehind b hb, List.findIdx_cons, beq_self_eq_true, cond_true]
        exact Nat.succ_pos _
      · refine (ih.filter _).imp_of_mem fun {a b} ha hb hlt => ?_
        rw [hbehind a ha, hbehind b hb]
        exact Nat.succ_lt_succ hlt

theorem distinct_eq_self (h : (list.map key).Nodup) : distinct list = list := by
  induction list with
  | nil => rfl
  | cons a rest ih =>
      rw [List.map_cons, List.nodup_cons] at h
      rw [distinct, ih h.2, List.filter_eq_self.2]
      intro b hb
      rw [sameKey_eq, Bool.not_eq_true', beq_eq_false_iff_ne]
      exact fun he => h.1 (he ▸ List.mem_map_of_mem hb)

end Component

/-! ### Components from fields -/

/-- To leave out elements does not change which of two others comes first. -/
theorem findIdx_lt_of_filter {α : Type} {p q r : α → Bool} {list : List α}
    (h : (list.filter p).findIdx q < (list.filter p).findIdx r) :
    list.findIdx (fun a => p a && q a) < list.findIdx (fun a => p a && r a) := by
  induction list with
  | nil => exact h
  | cons a rest ih =>
      rw [List.findIdx_cons, List.findIdx_cons]
      cases hp : p a with
      | false =>
          rw [List.filter_cons_of_neg (by rw [hp]; exact Bool.false_ne_true)] at h
          exact Nat.succ_lt_succ (ih h)
      | true =>
          rw [List.filter_cons_of_pos hp, List.findIdx_cons, List.findIdx_cons] at h
          rw [Bool.true_and, Bool.true_and]
          cases hq : q a <;> cases hr : r a <;> simp only [hq, hr, cond_true, cond_false] at h ⊢
          · exact Nat.succ_lt_succ (ih (Nat.lt_of_succ_lt_succ h))
          · exact absurd h (Nat.not_lt_zero _)
          · exact Nat.succ_pos _
          · exact absurd h (Nat.lt_irrefl 0)

namespace ClassFile

theorem isMirroredBy_synthesizedComponents (c : ClassFile) :
    c.IsMirroredBy c.synthesizedComponents where
  nodup := Component.nodup_distinct
  mem_iff name descriptor := by
    rw [synthesizedComponents, Component.mem_keys_distinct, List.map_map, List.mem_map]
    simp only [componentFields, List.mem_filter, AccessFlags.isFinalInstance, Bool.and_eq_true,
      Bool.not_eq_true', Function.comp_apply, Component.key, Component.ofField, Prod.mk.injEq]
    exact exists_congr fun field => by tauto
  first component h := by
    have hfind := Component.find?_of_mem_distinct h
    simp only [componentFields, List.find?_map, List.find?_filter, Bool.decide_and,
      Bool.decide_eq_true] at hfind
    exact hfind
  order := by
    refine (Component.pairwise_distinct _).imp fun {a b} hlt => ?_
    rw [componentFields, List.findIdx_map, List.findIdx_map] at hlt
    exact findIdx_lt_of_filter hlt

end ClassFile

/-! ### A list that comes back -/

theorem components_of_repair (hr : c.isRecord = true) (hs : settings.patchComponents = true)
    (hc : c.hasComponents = false) (hne : c.synthesizedComponents ≠ [])
    (h : repair settings lookup c = .ok (outcome, after)) :
    after.components = some c.synthesizedComponents ∧
      outcome.componentsAdded = c.synthesizedComponents.length := by
  obtain ⟨plan, -, hplan, -, rfl, rfl⟩ := exists_plan_of_repair hr h
  have hput : plan.components = some c.synthesizedComponents := by
    rw [hplan, Plan.missingComponents, hs, hc, Bool.not_false, Bool.and_self, if_pos rfl,
      Option.filter_some, List.isEmpty_eq_false_iff.2 hne, Bool.not_false, if_pos rfl]
  constructor
  · rw [Plan.apply, hput]
    rfl
  · rw [Plan.outcome, hput]
    rfl

/-- **Components that are put back mirror the final instance fields**: one for each pair of a name
and a descriptor, taken from the first such field and in the order of these.  If the components of a
record are just those of its fields, they come back after the list was lost. -/
theorem components_mirror_fields (c : ClassFile) :
    c.IsMirroredBy c.synthesizedComponents ∧
      ∀ list, c.isRecord = true → c.components = some list →
        list = (c.fields.filter fun field =>
          field.access.has .accFinal && !field.access.has .accStatic).map Component.ofField →
        list ≠ [] → (list.map Component.key).Nodup →
        ∀ lost, lost = none ∨ lost = some [] →
        ∀ settings lookup, settings.patchComponents = true →
        ∀ outcome after,
          repair settings lookup { c with components := lost } = .ok (outcome, after) →
          after.components = c.components ∧ outcome.componentsAdded = list.length := by
  refine ⟨c.isMirroredBy_synthesizedComponents, ?_⟩
  intro list hr hc hlist hne hnodup lost hlost settings lookup hs outcome after h
  have hself : Component.distinct list = list := Component.distinct_eq_self hnodup
  have hsynth : ({ c with components := lost } : ClassFile).synthesizedComponents = list := by
    rw [← hself, hlist]
    rfl
  have hlacks : ({ c with components := lost } : ClassFile).hasComponents = false :=
    ClassFile.hasComponents_eq_false_iff.2 hlost
  have hrecord : ({ c with components := lost } : ClassFile).isRecord = true := hr
  obtain ⟨hafter, hadded⟩ := components_of_repair hrecord hs hlacks (hsynth ▸ hne) h
  exact ⟨by rw [hafter, hsynth, hc], by rw [hadded, hsynth]⟩

/-- A record whose components are those of its two final instance fields.  A constant comes before
them, with the name and the descriptor of the first. -/
def completePair : ClassFile :=
  { ClassFile.bare "p/Pair" (some recordBase) with
    fields := [
      { access := AccessFlags.accStatic ||| AccessFlags.accFinal
        name := "first"
        descriptor := "Ljava/lang/Object;" },
      { access := AccessFlags.accPublic ||| AccessFlags.accFinal
        name := "first"
        descriptor := "Ljava/lang/Object;"
        signature := some "TA;" },
      { access := AccessFlags.accPrivate ||| AccessFlags.accFinal
        name := "first"
        descriptor := "I" }]
    components := some [⟨"first", "Ljava/lang/Object;", some "TA;"⟩, ⟨"first", "I", none⟩] }

theorem components_mirror_fields_completePair : ∃ outcome after,
    repair {} (fun _ => .error ⟨"offline"⟩) { completePair with components := none } =
        .ok (outcome, after) ∧
      completePair.IsMirroredBy completePair.synthesizedComponents ∧
      after.components = completePair.components ∧ outcome.componentsAdded = 2 := by
  have h : repair {} (fun _ => .error ⟨"offline"⟩) { completePair with components := none } = .ok
      ({ isRecord := true, componentsAdded := 2,
         signature := some "<A:Ljava/lang/Object;>Ljava/lang/Record;" },
       { completePair with
         signature := some "<A:Ljava/lang/Object;>Ljava/lang/Record;" }) := by rfl
  obtain ⟨hmirrored, hback⟩ := components_mirror_fields completePair
  obtain ⟨hafter, hadded⟩ :=
    hback _ (by decide) rfl (by rfl) (by simp) (by decide) none (.inl rfl) {}
      (fun _ => .error ⟨"offline"⟩) rfl _ _ h
  exact ⟨_, _, h, hmirrored, hafter, hadded⟩

end RecordRepair
