import RecordRepair.Proofs.Record.Survey

/-! # Which class a failure names

A failure carries the name of the class that it leaves as it is, whichever of the many places it
comes from.

* `FailsFor className x`: each failure of a computation names this class.  Sequences and loops keep
  this (`FailsFor.bind`, `failsFor_foldlM`), so there is one lemma for each function.
* `failsFor_repair`: a repair fails for the class that it is given. -/

namespace RecordRepair

open Signature

variable {α β : Type} {settings : Settings} {lookup : Lookup} {c : ClassFile}
  {className typeVariable : String} {x : Except Failure α}

/-- Each failure of a computation names the class. -/
def FailsFor (className : String) (x : Except Failure α) : Prop :=
  ∀ failure, x = .error failure → failure.className = className

/-! ### Combinators -/

theorem failsFor_ok (className : String) (a : α) : FailsFor className (.ok a) :=
  fun _ h => nomatch h

theorem failsFor_error {failure : Failure} (h : failure.className = className) :
    FailsFor className (.error failure : Except Failure α) := by
  intro failure' hf
  obtain rfl := Except.error.inj hf
  exact h

theorem failsFor_mapError (site : Site) (x : Except FormatError α) :
    FailsFor className (x.mapError (.malformedSignature className site)) := by
  cases x with
  | ok a => exact failsFor_ok className a
  | error error => exact failsFor_error rfl

theorem FailsFor.bind {f : α → Except Failure β} (hx : FailsFor className x)
    (hf : ∀ a, FailsFor className (f a)) : FailsFor className (x >>= f) := by
  cases x with
  | ok a => exact hf a
  | error failure => exact failsFor_error (hx failure rfl)

theorem FailsFor.map (hx : FailsFor className x) (f : α → β) : FailsFor className (x.map f) := by
  cases x with
  | ok a => exact failsFor_ok className (f a)
  | error failure => exact failsFor_error (hx failure rfl)

theorem failsFor_foldlM {f : β → α → Except Failure β} (hf : ∀ b a, FailsFor className (f b a))
    (list : List α) (b : β) : FailsFor className (list.foldlM f b) := by
  induction list generalizing b with
  | nil => exact failsFor_ok className b
  | cons a list ih =>
      rw [List.foldlM_cons]
      exact (hf b a).bind ih

/-! ### Surveys -/

theorem Signed.failsFor_collect (bindings : Bindings) (part : Signed) :
    FailsFor className (part.collect className bindings) := by
  cases hs : part.signature with
  | none =>
      rw [Signed.collect_eq_ok_iff.2 (Or.inl ⟨hs, rfl⟩)]
      exact failsFor_ok className bindings
  | some signature =>
      rw [Signed.collect_of_signature hs]
      split
      · exact failsFor_error rfl
      · split
        · exact failsFor_error rfl
        · exact failsFor_ok className _

theorem Survey.failsFor_declaredOf (c : ClassFile) : FailsFor c.name (declaredOf c) := by
  rw [declaredOf]
  split
  · exact failsFor_mapError _ _
  · exact failsFor_ok c.name []

theorem Survey.failsFor_ofClass (c : ClassFile) : FailsFor c.name (ofClass c) := by
  rw [ofClass_eq]
  refine (Signed.failsFor_collect _ _).bind fun bindings => ?_
  refine (failsFor_declaredOf c).bind fun declared => ?_
  refine (failsFor_foldlM Signed.failsFor_collect _ _).bind fun bindings => ?_
  exact failsFor_ok c.name _

/-! ### Declarations -/

theorem failsFor_boundEvents (bound : Bound) :
    FailsFor className (boundEvents lookup className typeVariable bound) := by
  cases bound with
  | unresolved => exact failsFor_ok className _
  | erased name =>
      rw [boundEvents]
      split
      · exact failsFor_error rfl
      · exact failsFor_error rfl
      · exact failsFor_ok className _

theorem failsFor_formalEvents (entries : List (String × Bound)) :
    FailsFor className (formalEvents lookup className entries) := by
  induction entries with
  | nil => exact failsFor_ok className []
  | cons entry rest ih =>
      obtain ⟨name, bound⟩ := entry
      rw [formalEvents]
      refine (failsFor_boundEvents bound).bind fun first => ?_
      exact ih.bind fun others => failsFor_ok className _

theorem failsFor_declare (bindings : Bindings) : FailsFor c.name (declare lookup c bindings) := by
  simp only [declare]
  refine (failsFor_formalEvents _).bind fun formals => ?_
  refine (failsFor_mapError _ _).bind fun text => ?_
  refine (failsFor_mapError _ _).bind fun _ => ?_
  exact failsFor_ok c.name text

/-! ### Repairs -/

theorem Plan.failsFor_missingSignature : FailsFor c.name (missingSignature settings lookup c) := by
  rw [missingSignature]
  split
  · refine (Survey.failsFor_ofClass c).bind fun survey => ?_
    split
    · exact (failsFor_declare survey.bindings).map some
    · exact failsFor_ok c.name none
  · exact failsFor_ok c.name none

/-- **A repair fails for the class that it is given.** -/
theorem failsFor_repair : FailsFor c.name (repair settings lookup c) := by
  rw [repair]
  split
  · rw [Plan.ofRecord, bind_assoc]
    refine Plan.failsFor_missingSignature.bind fun signature => ?_
    exact failsFor_ok c.name _
  · exact failsFor_ok c.name _

/-- Only records fail. -/
theorem isRecord_of_repair_eq_error {failure : Failure}
    (h : repair settings lookup c = .error failure) : c.isRecord = true := by
  cases hr : c.isRecord with
  | true => rfl
  | false =>
      rw [repair, hr] at h
      cases h

end RecordRepair
