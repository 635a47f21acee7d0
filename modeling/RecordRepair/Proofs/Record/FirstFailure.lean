import RecordRepair.Proofs.Record.Discovery
import RecordRepair.Proofs.Record.Outcome

/-! # Why a repair fails

A repair stops at the first thing that it cannot read or find out.  What could stop it can be listed
without carrying it out, so the failure is known: it is the first of the list.

* `ClassFile.declaration` is the text of the new signature.  `declare_eq_failingWith` says what
  stops it: a bound that the registry does not know, and then the text itself.
* `ClassFile.causes` lists these behind the parts of the class that cannot be read.
* `repair_eq_failingWith` and `repair_fails_first`: a repair fails for the first cause, and only if
  there is one. -/

namespace RecordRepair

open Signature

variable {settings : Settings} {lookup : Lookup} {c : ClassFile}

/-! ### The new signature -/

namespace ClassFile

/-- The class signature that declares all free type variables of a class. -/
def declaration (lookup : Lookup) (c : ClassFile) : String :=
  String.ofList (ClassTree.spliced (c.bindings.entries.map (RawFormal.ofEntry lookup)) recordBase
    c.interfaces).chars

/-- Why a text cannot be the signature of a class. -/
def textFailure? (c : ClassFile) (text : String) : Option Failure :=
  match validate .classKind text with
  | .error cause => some (.malformedSignature c.name .classSignature cause)
  | .ok () => none

end ClassFile

theorem declare_eq_failingWith : declare lookup c c.bindings =
    failingWith ((c.bindings.entries.findSome? (boundFailure? lookup c.name)).or
      (c.textFailure? (c.declaration lookup))) (c.declaration lookup) := by
  rw [declare, formalEvents_eq_failingWith]
  refine failingWith_bind fun _ => ?_
  have hp : printAll (((c.bindings.entries.map (RawFormal.ofEntry lookup)).flatMap fun f =>
      f.tree.events) ++ supertypeEvents c.interfaces) = .ok (c.declaration lookup) := by
    rw [supertypeEvents_eq, ← ClassTree.spliced_events, printAll_spliced]
    rfl
  rw [hp, ClassFile.textFailure?]
  simp only [bind, Except.bind, Except.mapError]
  cases validate .classKind (c.declaration lookup) <;> rfl

/-! ### All causes -/

namespace ClassFile

/-- Whether some free type variable is not declared by the class. -/
def needsDeclaration (c : ClassFile) : Bool :=
  c.bindings.names.any fun name => !c.declaredNames.contains name

/-- The class signature that is written if nothing stops it, if there has to be one. -/
def newSignature (lookup : Lookup) (c : ClassFile) : Option String :=
  if c.needsDeclaration then some (c.declaration lookup) else none

/-- What stops the new signature of a class, in the order in which it is found: bounds that are not
known, and then the text. -/
def declarationCauses (lookup : Lookup) (c : ClassFile) : List Failure :=
  c.bindings.entries.filterMap (boundFailure? lookup c.name) ++
    (c.textFailure? (c.declaration lookup)).toList

/-- All that stops the repair of a record, in the order in which it is found: parts that cannot be
read, and then the new signature, if there has to be one. -/
def causes (lookup : Lookup) (c : ClassFile) : List Failure :=
  c.parts.filterMap (Signed.failure? c.name) ++
    if c.needsDeclaration then c.declarationCauses lookup else []

theorem head?_declarationCauses : (c.declarationCauses lookup).head? =
    (c.bindings.entries.findSome? (boundFailure? lookup c.name)).or
      (c.textFailure? (c.declaration lookup)) := by
  rw [declarationCauses, List.head?_append, List.head?_filterMap, Option.head?_toList]

theorem head?_causes : (c.causes lookup).head? =
    (c.parts.findSome? (Signed.failure? c.name)).or
      (if c.needsDeclaration then (c.declarationCauses lookup).head? else none) := by
  rw [causes, List.head?_append, List.head?_filterMap]
  split <;> rfl

end ClassFile

/-! ### Repairs -/

theorem missingSignature_eq_failingWith (hs : settings.patchSignature = true) :
    Plan.missingSignature settings lookup c =
      failingWith (c.causes lookup).head? (c.newSignature lookup) := by
  rw [Plan.missingSignature, if_pos hs, Survey.ofClass_eq_failingWith, ClassFile.head?_causes,
    ClassFile.newSignature]
  refine failingWith_bind fun _ => ?_
  have hneeds : Survey.needsDeclaration ⟨c.bindings, c.declaredNames⟩ = c.needsDeclaration := rfl
  rw [hneeds]
  cases c.needsDeclaration with
  | false => rfl
  | true =>
      rw [if_pos rfl, if_pos rfl, if_pos rfl, declare_eq_failingWith, failingWith_map,
        ClassFile.head?_declarationCauses]

/-- A repair fails for the first of its causes, and carries out a plan if there is none. -/
theorem repair_eq_failingWith (lookup : Lookup) (hr : c.isRecord = true)
    (hs : settings.patchSignature = true) : ∃ plan : Plan,
      plan.signature = c.newSignature lookup ∧ repair settings lookup c =
        failingWith (c.causes lookup).head? (plan.outcome, plan.apply c) := by
  refine ⟨⟨Plan.missingComponents settings c, c.newSignature lookup,
    Plan.exposedFields settings c⟩, rfl, ?_⟩
  rw [repair, if_pos hr, Plan.ofRecord, missingSignature_eq_failingWith hs, bind_assoc]
  exact failingWith_bind_ok rfl

/-- **A repair fails exactly when it must, with the first cause.**  If class signatures are to be
written, the failure is the first of the causes that the class and the registry give: parts that
cannot be read, then bounds that the registry does not know, then the text of the new signature,
which is the one that is written if there is no cause.  If no class signatures are to be written, no
repair fails. -/
theorem repair_fails_first (settings : Settings) (lookup : Lookup)
    (hr : c.superclass = some recordBase) :
    (settings.patchSignature = true →
      (∀ failure, repair settings lookup c = .error failure ↔
        (c.causes lookup).head? = some failure) ∧
      (c.causes lookup = [] → ∃ outcome after, repair settings lookup c = .ok (outcome, after) ∧
        outcome.signature = c.newSignature lookup)) ∧
    (settings.patchSignature = false →
      ∃ outcome after, repair settings lookup c = .ok (outcome, after)) := by
  have hrecord := ClassFile.isRecord_eq_true_iff.2 hr
  refine ⟨fun hs => ?_, fun hs => ?_⟩
  · obtain ⟨plan, hsignature, hp⟩ := repair_eq_failingWith lookup hrecord hs
    refine ⟨fun failure => ?_, fun hc => ?_⟩
    · rw [hp, failingWith_eq_error_iff]
    · rw [hp, hc]
      exact ⟨_, _, rfl, hsignature⟩
  · rw [repair, if_pos hrecord, Plan.ofRecord, Plan.missingSignature, hs]
    exact ⟨_, _, rfl⟩

/-- A record of one component, of a type that the registry has to be asked for, with a method whose
signature breaks off. -/
def brokenBox : ClassFile :=
  { ClassFile.bare "p/Box" (some recordBase) with
    fields := [{
      access := AccessFlags.accPrivate ||| AccessFlags.accFinal
      name := "value"
      descriptor := "Ljava/lang/Number;"
      signature := some "TT;" }]
    methods := [{
      access := AccessFlags.accPublic
      name := "value"
      descriptor := "()Ljava/lang/Number;"
      signature := some "()" }] }

/-- The registry would fail as well, but the signature comes first. -/
theorem repair_fails_first_brokenBox :
    brokenBox.causes (fun _ => .error ⟨"offline"⟩) = [
      .malformedSignature "p/Box" (.method "value" "()Ljava/lang/Number;")
        (.invalidSignature "()" 2 .endOfText),
      .registryUnavailable "p/Box" "T" "java/lang/Number" ⟨"offline"⟩] ∧
    repair {} (fun _ => .error ⟨"offline"⟩) brokenBox = .error
      (.malformedSignature "p/Box" (.method "value" "()Ljava/lang/Number;")
        (.invalidSignature "()" 2 .endOfText)) ∧
    ∃ outcome after, repair { patchSignature := false } (fun _ => .error ⟨"offline"⟩) brokenBox =
      .ok (outcome, after) := by
  have hcauses : brokenBox.causes (fun _ => .error ⟨"offline"⟩) = [
      .malformedSignature "p/Box" (.method "value" "()Ljava/lang/Number;")
        (.invalidSignature "()" 2 .endOfText),
      .registryUnavailable "p/Box" "T" "java/lang/Number" ⟨"offline"⟩] := by
    decide +kernel
  refine ⟨hcauses, (((repair_fails_first {} _ rfl).1 rfl).1 _).2 ?_,
    (repair_fails_first _ _ rfl).2 rfl⟩
  rw [hcauses]
  rfl

end RecordRepair
