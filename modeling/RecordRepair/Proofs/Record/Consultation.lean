import RecordRepair.Proofs.Record.Outcome

/-! # What a repair asks a registry

A registry plays no part in a repair but through the answers to what it is asked.  It is asked for
the bounds of type variables, and only if a class signature has to be written.

* `asked lookup entries`: the names that are looked up for some type variables, in order.  Nothing
  more is looked up behind a name that is not found.
* `formalEvents_congr`: two registries that agree on what one of them is asked for give the same
  type parameters.
* `repairAsks`: the names that are looked up in a repair.  `repair_congr` says that two registries
  that agree on them give the same repair.
* `repair_asks_bounds`: so the same repair comes of registries that agree on the bounds that were
  discovered, and a repair that succeeds does so with every registry that knows more. -/

namespace RecordRepair

open Signature

variable {settings : Settings} {lookup other : Lookup} {c : ClassFile} {className name : String}
  {entries : List (String × Bound)}

/-- Two registries give the same answers for some names. -/
def AgreeOn (names : List String) (lookup other : Lookup) : Prop :=
  ∀ name ∈ names, lookup name = other name

theorem agreeOn_nil : AgreeOn [] lookup other := List.forall_mem_nil _

/-! ### Type parameters -/

/-- The names that are looked up for the bounds of some type variables, in order.  A name that is
not found is the last. -/
def asked (lookup : Lookup) : List (String × Bound) → List String
  | [] => []
  | (_, .unresolved) :: rest => asked lookup rest
  | (_, .erased bound) :: rest =>
    bound :: match lookup bound with
      | .ok (some _) => asked lookup rest
      | _ => []

theorem asked_erased_of_found {info : ClassInfo} {bound : String}
    (h : lookup bound = .ok (some info)) :
    asked lookup ((name, .erased bound) :: entries) = bound :: asked lookup entries := by
  rw [asked, h]

theorem exists_entry_of_mem_asked (h : name ∈ asked lookup entries) :
    ∃ n, (n, .erased name) ∈ entries := by
  induction entries with
  | nil => cases h
  | cons entry rest ih =>
      have hrest : name ∈ asked lookup rest → ∃ n, (n, .erased name) ∈ entry :: rest := by
        intro hm
        obtain ⟨n, hn⟩ := ih hm
        exact ⟨n, List.mem_cons_of_mem _ hn⟩
      obtain ⟨n, bound⟩ := entry
      cases bound with
      | unresolved => exact hrest h
      | erased bound =>
          rw [asked] at h
          rcases List.mem_cons.1 h with rfl | h
          · exact ⟨n, List.mem_cons_self⟩
          · split at h
            · exact hrest h
            · cases h

theorem formalEvents_congr (h : AgreeOn (asked lookup entries) lookup other) :
    formalEvents lookup className entries = formalEvents other className entries := by
  induction entries with
  | nil => rfl
  | cons entry rest ih =>
      obtain ⟨n, bound⟩ := entry
      cases bound with
      | unresolved => rw [formalEvents, formalEvents, ih h, boundEvents, boundEvents]
      | erased bound =>
          have hb : lookup bound = other bound := h bound (by rw [asked]; exact List.mem_cons_self)
          rw [formalEvents, formalEvents, boundEvents, boundEvents, ← hb]
          cases hl : lookup bound with
          | error cause => rfl
          | ok info? =>
              cases info? with
              | none => rfl
              | some info =>
                  rw [asked_erased_of_found hl] at h
                  rw [ih fun m hm => h m (List.mem_cons_of_mem _ hm)]

theorem exists_info_of_formalEvents {es : List Signature.Event}
    (h : formalEvents lookup className entries = .ok es) :
    ∀ name ∈ asked lookup entries, ∃ info, lookup name = .ok (some info) := by
  induction entries generalizing es with
  | nil => exact List.forall_mem_nil _
  | cons entry rest ih =>
      obtain ⟨n, bound⟩ := entry
      rw [formalEvents] at h
      obtain ⟨first, hfirst, h⟩ := exists_of_bind_eq_ok h
      obtain ⟨others, hothers, -⟩ := exists_of_bind_eq_ok h
      cases bound with
      | unresolved => exact ih hothers
      | erased bound =>
          rw [boundEvents] at hfirst
          cases hl : lookup bound with
          | error cause =>
              rw [hl] at hfirst
              cases hfirst
          | ok info? =>
              cases info? with
              | none =>
                  rw [hl] at hfirst
                  cases hfirst
              | some info =>
                  rw [asked_erased_of_found hl]
                  exact List.forall_mem_cons.2 ⟨⟨info, hl⟩, ih hothers⟩

/-! ### Repairs -/

theorem declare_congr {bindings : Bindings}
    (h : AgreeOn (asked lookup bindings.entries) lookup other) :
    declare lookup c bindings = declare other c bindings := by
  rw [declare, formalEvents_congr h, declare]

/-- The names that are looked up in a repair, in order. -/
def repairAsks (settings : Settings) (lookup : Lookup) (c : ClassFile) : List String :=
  if c.isRecord && settings.patchSignature then
    match Survey.ofClass c with
    | .ok survey => if survey.needsDeclaration then asked lookup survey.bindings.entries else []
    | .error _ => []
  else []

theorem repairAsks_eq_nil (h : c.isRecord = false ∨ settings.patchSignature = false ∨
    ∀ survey, Survey.ofClass c = .ok survey → survey.needsDeclaration = false) :
    repairAsks settings lookup c = [] := by
  rw [repairAsks]
  rcases h with h | h | h
  · rw [h, Bool.false_and]
    rfl
  · rw [h, Bool.and_false]
    rfl
  · split
    · split
      · next survey hsurvey => rw [h survey hsurvey]; rfl
      · rfl
    · rfl

/-- A repair asks for nothing but the bounds that its survey has found. -/
theorem exists_survey_of_mem_repairAsks (h : name ∈ repairAsks settings lookup c) :
    ∃ survey, Survey.ofClass c = .ok survey ∧ ∃ n, (n, .erased name) ∈ survey.bindings.entries := by
  rw [repairAsks] at h
  split at h
  · split at h
    · next survey hsurvey =>
        split at h
        · exact ⟨survey, hsurvey, exists_entry_of_mem_asked h⟩
        · cases h
    · cases h
  · cases h

theorem missingSignature_congr (hr : c.isRecord = true)
    (h : AgreeOn (repairAsks settings lookup c) lookup other) :
    Plan.missingSignature settings lookup c = Plan.missingSignature settings other c := by
  rw [Plan.missingSignature, Plan.missingSignature]
  split
  · next hs =>
      rw [repairAsks, hr, hs, Bool.and_self, if_pos rfl] at h
      cases hsurvey : Survey.ofClass c with
      | error failure => rfl
      | ok survey =>
          rw [hsurvey] at h
          simp only [bind, Except.bind]
          split
          · next hneeds =>
              simp only [hneeds, if_true] at h
              rw [declare_congr h]
          · rfl
  · rfl

theorem repair_congr (h : AgreeOn (repairAsks settings lookup c) lookup other) :
    repair settings lookup c = repair settings other c := by
  rw [repair, repair]
  split
  · next hr => rw [Plan.ofRecord, Plan.ofRecord, missingSignature_congr hr h]
  · rfl

theorem exists_info_of_repair {result : Outcome × ClassFile}
    (h : repair settings lookup c = .ok result) :
    ∀ name ∈ repairAsks settings lookup c, ∃ info, lookup name = .ok (some info) := by
  rw [repairAsks]
  split
  · next hs =>
      obtain ⟨hr, hs⟩ := Bool.and_eq_true_iff.1 hs
      obtain ⟨plan, hsig, -⟩ := exists_plan_of_repair hr h
      obtain ⟨survey, hsurvey, hcases⟩ := missingSignature_cases hs hsig
      rw [hsurvey]
      rcases hcases with ⟨hneeds, text, -, hd⟩ | ⟨hneeds, -⟩
      · obtain ⟨es, hes⟩ := exists_formalEvents hd
        simp only [hneeds, if_true]
        exact exists_info_of_formalEvents hes
      · simp only [hneeds]
        exact List.forall_mem_nil _
  · exact List.forall_mem_nil _

/-- **A repair is asked for bounds, and for nothing else.**  Registries that agree on the bounds that
the survey of a class has discovered give the same repair.  Any two do so if the class is no record,
if no class signature is to be written, or if all that was discovered is declared.  And if a repair
succeeds, then it has the same result with any other registry that gives the answers that were found,
whatever that one says of other names. -/
theorem repair_asks_bounds (settings : Settings) (c : ClassFile) :
    (∀ lookup other : Lookup,
      (∀ survey, Survey.ofClass c = .ok survey →
        ∀ n bound, (n, .erased bound) ∈ survey.bindings.entries → lookup bound = other bound) →
      repair settings lookup c = repair settings other c) ∧
    (c.superclass ≠ some recordBase ∨ settings.patchSignature = false ∨
      (∀ survey, Survey.ofClass c = .ok survey →
        ∀ n ∈ survey.bindings.names, n ∈ survey.declared) →
      ∀ lookup other : Lookup, repair settings lookup c = repair settings other c) ∧
    ∀ (lookup other : Lookup) (outcome : Outcome) (after : ClassFile),
      repair settings lookup c = .ok (outcome, after) →
      (∀ name info, lookup name = .ok (some info) → other name = .ok (some info)) →
      repair settings other c = .ok (outcome, after) := by
  refine ⟨fun lookup other h => ?_, fun h lookup other => ?_, fun lookup other outcome after h hk => ?_⟩
  · refine repair_congr fun name hm => ?_
    obtain ⟨survey, hsurvey, n, hn⟩ := exists_survey_of_mem_repairAsks hm
    exact h survey hsurvey n name hn
  · have hnil : repairAsks settings lookup c = [] := by
      refine repairAsks_eq_nil (h.imp (fun hr => ?_) (Or.imp_right fun hall survey hsurvey => ?_))
      · rwa [← Bool.not_eq_true, ClassFile.isRecord_eq_true_iff]
      · exact Survey.needsDeclaration_eq_false_iff.2 (hall survey hsurvey)
    exact repair_congr (hnil ▸ agreeOn_nil)
  · rw [← h]
    refine (repair_congr fun name hm => ?_).symm
    obtain ⟨info, hinfo⟩ := exists_info_of_repair h name hm
    rw [hinfo, hk name info hinfo]

/-- A record of one component of a type `T` that is erased to a class. -/
def numberBox : ClassFile :=
  { ClassFile.bare "p/Box" (some recordBase) with
    interfaces := ["p/I"]
    fields := [{
      access := AccessFlags.accPrivate ||| AccessFlags.accFinal
      name := "value"
      descriptor := "Ljava/lang/Number;"
      signature := some "TT;" }] }

/-- A registry that can tell of one class only. -/
def knowsNumber : Lookup := fun name =>
  if name = "java/lang/Number" then .ok (some ⟨false⟩) else .error ⟨"offline"⟩

/-- The registry need not know the interface, but it is asked for the bound. -/
theorem repair_asks_bounds_numberBox : ∃ outcome after,
    repair {} knowsNumber numberBox = .ok (outcome, after) ∧
      outcome.signature = some "<T:Ljava/lang/Number;>Ljava/lang/Record;Lp/I;" ∧
      repairAsks {} knowsNumber numberBox = ["java/lang/Number"] ∧
      ∀ other : Lookup, other "java/lang/Number" = .ok (some ⟨false⟩) →
        repair {} other numberBox = .ok (outcome, after) := by
  have h : repair {} knowsNumber numberBox = .ok
      ({ isRecord := true, componentsAdded := 1,
         signature := some "<T:Ljava/lang/Number;>Ljava/lang/Record;Lp/I;" },
       { numberBox with
         signature := some "<T:Ljava/lang/Number;>Ljava/lang/Record;Lp/I;"
         components := some [⟨"value", "Ljava/lang/Number;", some "TT;"⟩] }) := by rfl
  refine ⟨_, _, h, rfl, by rfl, fun other ho => ?_⟩
  refine (repair_asks_bounds {} numberBox).2.2 knowsNumber other _ _ h fun name info hn => ?_
  rw [knowsNumber] at hn
  split at hn
  · next he => rw [he, ho, Except.ok.inj hn]
  · cases hn

end RecordRepair
