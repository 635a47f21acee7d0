import RecordRepair.Proofs.Record.Closure
import RecordRepair.Proofs.Record.Collection

/-! # What a rewritten signature declares

A repair writes a class signature only if it has to, and then the signature declares what was found
in the members and nothing else.

* `ClassFile.freeNames`: the free type variables of a class, in the order in which its signatures
  refer to them for the first time.
* `Survey.ofClass_eq_failingWith`: a survey fails for the first part that cannot be read, and else
  finds the bindings of all free occurrences.
* `Survey.names_of_ofClass`: the names of a survey are these, in this order.
* `repair_declares_exactly`: a signature is written exactly if one of them is not declared yet, and
  it declares all of them in this order. -/

namespace RecordRepair

open Signature

variable {settings : Settings} {lookup : Lookup} {c after : ClassFile} {outcome : Outcome}

/-! ### Free names -/

/-- The free type variables of a part of a class, one for each time that it refers to one. -/
def Signed.freeNames (part : Signed) : List String :=
  part.signature.elim [] fun text =>
    ((walk part.kind text).events.filterMap Event.reference?).filter fun name =>
      !(declaredNames part.kind text).contains name

/-- The free type variables of a class without repetitions: those of its signature come first, and
then those of its components, its fields and its methods. -/
def ClassFile.freeNames (c : ClassFile) : List String :=
  ((Signed.ofClass c :: c.members).flatMap Signed.freeNames).eraseDups

/-- The type parameters that a class declares. -/
def ClassFile.declaredNames (c : ClassFile) : List String :=
  c.signature.elim [] (Signature.declaredNames .classKind)

theorem Bindings.names_ofOccurrences (found : List Occurrence) :
    (ofOccurrences found).names = (found.map Occurrence.name).eraseDups := by
  rw [names, ofOccurrences, List.map_map]
  exact List.map_id _

/-! ### What a survey computes -/

namespace Signed

/-- Why a part with a signature cannot be read: its descriptor comes before its signature. -/
def failure? (className : String) (part : Signed) : Option Failure :=
  match part.signature, part.evidence with
  | none, _ => none
  | some _, .error cause => some (.invalidDescriptor className part.site cause)
  | some signature, .ok _ =>
    match validate part.kind signature with
    | .error cause => some (.malformedSignature className part.site cause)
    | .ok () => none

/-- The free occurrences of type variables in a part. -/
def occurrences (part : Signed) : List Occurrence :=
  match part.signature, part.evidence with
  | some signature, .ok evidence => Member.occurrences ⟨signature, part.kind, evidence⟩
  | _, _ => []

theorem collect_eq_failingWith (className : String) (found : List Occurrence) (part : Signed) :
    part.collect className (.ofOccurrences found) =
      failingWith (part.failure? className) (.ofOccurrences (found ++ part.occurrences)) := by
  cases hs : part.signature with
  | none =>
      rw [collect_eq_ok_iff.2 (Or.inl ⟨hs, rfl⟩), failure?, occurrences, hs]
      simp [failingWith]
  | some signature =>
      rw [collect_of_signature hs, failure?, occurrences, hs]
      cases part.evidence with
      | error cause => rfl
      | ok evidence =>
          dsimp only
          rw [Bindings.collect_snd, Bindings.collect_ofOccurrences]
          cases validate part.kind signature <;> rfl

theorem foldlM_collect_eq_failingWith (className : String) (found : List Occurrence)
    (parts : List Signed) :
    parts.foldlM (collect className) (.ofOccurrences found) =
      failingWith (parts.findSome? (failure? className))
        (.ofOccurrences (found ++ parts.flatMap occurrences)) := by
  induction parts generalizing found with
  | nil => simp [failingWith, pure, Except.pure]
  | cons part parts ih =>
      have hrest := ih (found ++ part.occurrences)
      rw [List.append_assoc] at hrest
      rw [List.foldlM_cons, collect_eq_failingWith, findSome?_cons_eq_or, List.flatMap_cons]
      exact failingWith_bind fun _ => hrest

end Signed

namespace ClassFile

/-- The class itself and its members, in the order in which they are read. -/
def parts (c : ClassFile) : List Signed := Signed.ofClass c :: c.members

/-- The free type variables of a class and what is known of their bounds, in the order of
discovery. -/
def bindings (c : ClassFile) : Bindings := .ofOccurrences (c.parts.flatMap Signed.occurrences)

end ClassFile

theorem ClassFile.declaredBy_eq_declaredNames (h : (Signed.ofClass c).IsReadable) :
    declaredBy c.signature = c.declaredNames := by
  rw [declaredBy, declaredNames]
  cases hs : c.signature with
  | none => rfl
  | some text =>
      have hw := (h text hs).2
      exact (declaredNames_of_declaredParameters (declaredParameters_of_walk hw)).symm

theorem Survey.ofClass_eq_failingWith : ofClass c =
    failingWith (c.parts.findSome? (Signed.failure? c.name)) ⟨c.bindings, c.declaredNames⟩ := by
  have hempty : Bindings.empty = .ofOccurrences [] := rfl
  rw [ofClass_eq, hempty, ClassFile.bindings, ClassFile.parts, findSome?_cons_eq_or,
    List.flatMap_cons]
  have hclass := Signed.collect_eq_failingWith c.name [] (Signed.ofClass c)
  have hmembers := Signed.foldlM_collect_eq_failingWith c.name (Signed.ofClass c).occurrences
    c.members
  rw [hclass]
  refine failingWith_bind fun hf => ?_
  rw [hf] at hclass
  have hread := (Signed.collect_spec hclass).1
  have hdeclared : declaredOf c = failingWith none c.declaredNames := by
    rw [declaredOf_eq hread, ClassFile.declaredBy_eq_declaredNames hread]
    rfl
  rw [hdeclared, List.nil_append]
  refine failingWith_bind fun _ => ?_
  rw [hmembers]
  exact failingWith_bind_ok rfl

theorem Survey.eq_of_ofClass {survey : Survey} (h : ofClass c = .ok survey) :
    survey = ⟨c.bindings, c.declaredNames⟩ := by
  rw [ofClass_eq_failingWith, failingWith_eq_ok_iff] at h
  exact h.2.symm

theorem Signed.map_name_occurrences {part : Signed} (h : part.IsReadable) :
    part.occurrences.map Occurrence.name = part.freeNames := by
  rw [occurrences, freeNames]
  cases hs : part.signature with
  | none => rfl
  | some text =>
      obtain ⟨⟨evidence, he⟩, hw⟩ := h text hs
      rw [he]
      exact Member.map_name_occurrences ⟨text, part.kind, evidence⟩ (Or.inr (Or.inl hw))

theorem Survey.names_of_ofClass {survey : Survey} (h : ofClass c = .ok survey) :
    survey.bindings.names = c.freeNames := by
  obtain ⟨hread, -, -⟩ := ofClass_spec h
  rw [eq_of_ofClass h, ClassFile.bindings, Bindings.names_ofOccurrences, List.map_flatMap,
    ClassFile.freeNames]
  exact congrArg List.eraseDups
    (List.flatMap_congr fun part hp => Signed.map_name_occurrences (hread part hp))

/-! ### Repairs -/

/-- **A signature is written exactly when it is needed, and declares exactly what was found.**  A
repair of a record writes a class signature if and only if some free type variable of the class is
not declared by the signature that the class had.  The one that it writes declares the free type
variables of the class, each of them once and in the order in which they first occur. -/
theorem repair_declares_exactly (hr : c.isRecord = true) (hs : settings.patchSignature = true)
    (h : repair settings lookup c = .ok (outcome, after)) :
    (outcome.signature.isSome = true ↔ ∃ n ∈ c.freeNames, n ∉ c.declaredNames) ∧
      ∀ text, outcome.signature = some text →
        declaredParameters .classKind text = .ok c.freeNames ∧ c.freeNames.Nodup := by
  obtain ⟨plan, hsig, -, -, rfl, -⟩ := exists_plan_of_repair hr h
  have houtcome : plan.outcome.signature = plan.signature := rfl
  rw [houtcome]
  obtain ⟨survey, hsurvey, hcases⟩ := missingSignature_cases hs hsig
  have hnames := Survey.names_of_ofClass hsurvey
  have hdeclared : survey.declared = c.declaredNames := by rw [Survey.eq_of_ofClass hsurvey]
  have hneeds : survey.needsDeclaration = true ↔ ∃ n ∈ c.freeNames, n ∉ c.declaredNames := by
    rw [Survey.needsDeclaration, hnames, hdeclared]
    simp
  rw [← hneeds]
  rcases hcases with ⟨hn, text, hp, hd⟩ | ⟨hn, hp⟩
  · obtain ⟨hproper, hplain⟩ := Survey.isPlain hsurvey
    refine ⟨by simp [hp, hn], fun text' ht => ?_⟩
    obtain rfl := Option.some.inj (hp.symm.trans ht)
    have hdecl := declaredParameters_of_declare hproper hplain hd
    rw [hnames] at hdecl
    exact ⟨hdecl, nodup_eraseDups _⟩
  · refine ⟨by simp [hp, hn], fun text ht => ?_⟩
    rw [hp] at ht
    cases ht

/-- A record with two components of the types `A` and `B`, whose signature has lost the parameter
`A`. -/
def strippedPair : ClassFile :=
  { ClassFile.bare "p/Pair" (some recordBase) with
    signature := some "<B:Ljava/lang/Object;>Ljava/lang/Record;"
    fields := [
      { access := AccessFlags.accPrivate ||| AccessFlags.accFinal
        name := "first"
        descriptor := "Ljava/lang/Object;"
        signature := some "TA;" },
      { access := AccessFlags.accPrivate ||| AccessFlags.accFinal
        name := "second"
        descriptor := "Ljava/lang/Object;"
        signature := some "TB;" }] }

theorem repair_declares_exactly_strippedPair :
    ∃ outcome after, repair {} (fun _ => .error ⟨"offline"⟩) strippedPair = .ok (outcome, after) ∧
      (outcome.signature.isSome = true ↔
        ∃ n ∈ strippedPair.freeNames, n ∉ strippedPair.declaredNames) ∧
      outcome.signature = some "<A:Ljava/lang/Object;B:Ljava/lang/Object;>Ljava/lang/Record;" ∧
      declaredParameters .classKind "<A:Ljava/lang/Object;B:Ljava/lang/Object;>Ljava/lang/Record;" =
        .ok strippedPair.freeNames ∧ strippedPair.freeNames = ["A", "B"] := by
  have h : repair {} (fun _ => .error ⟨"offline"⟩) strippedPair = .ok
      ({ isRecord := true, componentsAdded := 2,
         signature := some "<A:Ljava/lang/Object;B:Ljava/lang/Object;>Ljava/lang/Record;" },
       { strippedPair with
         signature := some "<A:Ljava/lang/Object;B:Ljava/lang/Object;>Ljava/lang/Record;"
         components := some [⟨"first", "Ljava/lang/Object;", some "TA;"⟩,
           ⟨"second", "Ljava/lang/Object;", some "TB;"⟩] }) := by rfl
  obtain ⟨hwritten, hdeclared⟩ := repair_declares_exactly (by decide) rfl h
  exact ⟨_, _, h, hwritten, rfl, (hdeclared _ rfl).1, by rfl⟩

/-! ### Where the names come from -/

theorem declares_iff_of_declare {survey : Survey} {text n : String}
    (hsurvey : Survey.ofClass c = .ok survey) (h : declare lookup c survey.bindings = .ok text) :
    Declares .classKind text n ↔ ∃ p ∈ Signed.ofClass c :: c.members, p.IsFree n := by
  obtain ⟨hproper, hplain⟩ := Survey.isPlain hsurvey
  have hdecl := declaredParameters_of_declare hproper hplain h
  obtain ⟨-, -, hnames⟩ := Survey.ofClass_spec hsurvey
  rw [← hnames]
  constructor
  · rintro ⟨declared, hd, hn⟩
    obtain rfl := Except.ok.inj (hdecl.symm.trans hd)
    exact hn
  · intro hn
    exact ⟨_, hdecl, hn⟩

/-- **Every type parameter of a new signature comes from some signature of the class.**  It is a free
type variable of a member or else of the old class signature.  So every one is used by a member
exactly if the members use all free type variables of the old class signature. -/
theorem repair_declares_used {text : String} (h : repair settings lookup c = .ok (outcome, after))
    (ht : outcome.signature = some text) :
    (∀ n, Declares .classKind text n ↔
        (∃ p ∈ c.members, p.IsFree n) ∨ (Signed.ofClass c).IsFree n) ∧
      ((∀ n, Declares .classKind text n → ∃ p ∈ c.members, p.IsFree n) ↔
        ∀ n, (Signed.ofClass c).IsFree n → ∃ p ∈ c.members, p.IsFree n) := by
  obtain ⟨survey, hsurvey, -, hd⟩ := exists_declare_of_repair h ht
  have hiff : ∀ n, Declares .classKind text n ↔
      (∃ p ∈ c.members, p.IsFree n) ∨ (Signed.ofClass c).IsFree n := by
    intro n
    rw [declares_iff_of_declare hsurvey hd, List.exists_mem_cons_iff, or_comm]
  refine ⟨hiff, fun hall n hn => hall n ((hiff n).2 (Or.inr hn)), fun hall n hn => ?_⟩
  rcases (hiff n).1 hn with hm | hc
  · exact hm
  · exact hall n hc

/-- A record of one component of the type `T` that implements an interface with the type argument
`U`, which nothing declares. -/
def staleBox : ClassFile :=
  { strippedBox with
    interfaces := ["p/I"]
    signature := some "Ljava/lang/Record;Lp/I<TU;>;" }

theorem repair_staleBox : ∃ after, repair {} (fun _ => .error ⟨"offline"⟩) staleBox = .ok
    ({ isRecord := true, componentsAdded := 1,
       signature := some "<U:Ljava/lang/Object;T:Ljava/lang/Object;>Ljava/lang/Record;Lp/I;" },
     after) := ⟨_, rfl⟩

theorem repair_declares_used_staleBox : ∃ outcome after,
    repair {} (fun _ => .error ⟨"offline"⟩) staleBox = .ok (outcome, after) ∧
      outcome.signature =
        some "<U:Ljava/lang/Object;T:Ljava/lang/Object;>Ljava/lang/Record;Lp/I;" ∧
      ∀ n, Declares .classKind
          "<U:Ljava/lang/Object;T:Ljava/lang/Object;>Ljava/lang/Record;Lp/I;" n ↔
        (∃ p ∈ staleBox.members, p.IsFree n) ∨ (Signed.ofClass staleBox).IsFree n := by
  obtain ⟨after, h⟩ := repair_staleBox
  exact ⟨_, after, h, rfl, (repair_declares_used h rfl).1⟩

/-- The type argument is lost with the old signature, but the new one declares `U`. -/
theorem repair_declares_unused : ∃ outcome after text,
    repair {} (fun _ => .error ⟨"offline"⟩) staleBox = .ok (outcome, after) ∧
      outcome.signature = some text ∧ Declares .classKind text "U" ∧
      ∀ p ∈ staleBox.members, ¬ p.IsFree "U" := by
  obtain ⟨after, h⟩ := repair_staleBox
  refine ⟨_, after, _, h, rfl, ⟨["U", "T"], by decide, by decide⟩, fun p hp hf => ?_⟩
  have hp' : p = Signed.ofField _ := List.mem_singleton.1 hp
  obtain ⟨text, ht, hm, -⟩ := hf
  rw [hp'] at ht hm
  obtain rfl := Option.some.inj ht
  revert hm
  decide

end RecordRepair
