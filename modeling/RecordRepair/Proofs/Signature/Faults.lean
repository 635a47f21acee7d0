import RecordRepair.Proofs.Signature.Steps

/-! # What stands before a fault

A step that stops the reading may have completed events before it found out.  They belong to the
reading like all others.

* `Fails goals es`: the goals complete the events `es`, and then the reading stops.
* `fails_of_step` says that this is all that such a step does.  It never completes the name of a
  type parameter or of a type variable.
* `scan_forall`: what steps and faults keep holds of all events of a scan, with or without a
  fault. -/

namespace RecordRepair.Signature

variable {goals rest left : List Goal} {es : List Event} {c : Option Char} {s : List Char}
  {fault : Fault}

/-- Goals complete some events, and then the reading stops. -/
inductive Fails : List Goal → List Event → Prop
  | atOnce {goals : List Goal} : Fails goals []
  | superclass {rest : List Goal} : Fails (.superclass :: rest) [.superclass]
  | interface {rest : List Goal} : Fails (.interfaces :: rest) [.interface]
  | parameter {rest : List Goal} : Fails (.moreParameters :: rest) [.parameterType]
  | result {rest : List Goal} : Fails (.returnType :: rest) [.returnType]
  | className {name : String} {rest : List Goal} : name ≠ "" →
      Fails (.className name :: rest) [.classType name]
  | innerName {name : String} {rest : List Goal} : name ≠ "" →
      Fails (.innerName name :: rest) [.close, .innerClassType name]
  | firstArgument {rest : List Goal} : Fails (.firstArgument :: rest) [.typeArgument .exact]
  | moreArguments {rest : List Goal} : Fails (.moreArguments :: rest) [.typeArgument .exact]
  | skip {goal : Goal} {rest : List Goal} {es : List Event} : goal.isOptional = true →
      Fails rest es → Fails (goal :: rest) es
  | argumentEnd {rest : List Goal} {es : List Event} : Fails rest es →
      Fails (.argumentEnd :: rest) (.close :: es)

/-! ### The faults are no others -/

theorem Move.leave_ne_error : Move.leave goals ≠ ⟨es, .error fault⟩ := by
  simp [Move.leave]

theorem Move.stop_eq_iff {f : Fault} {next : Except Fault (List Goal)} :
    Move.stop f = ⟨es, next⟩ ↔ es = [] ∧ next = .error f := by
  simp [Move.stop, eq_comm]

theorem Fails.of_stop {f : Fault} (h : Move.stop f = ⟨es, .error fault⟩) : Fails goals es := by
  obtain ⟨rfl, -⟩ := Move.stop_eq_iff.1 h
  exact .atOnce

theorem readClass_eq_error (h : readClass rest c = ⟨es, .error fault⟩) : es = [] := by
  unfold readClass at h
  split at h
  · exact absurd h Move.leave_ne_error
  · exact (Move.stop_eq_iff.1 h).1

theorem readReference_eq_error (h : readReference rest c = ⟨es, .error fault⟩) : es = [] := by
  unfold readReference at h
  split at h
  · exact absurd h Move.leave_ne_error
  split at h
  · exact absurd h Move.leave_ne_error
  split at h
  · obtain ⟨fs, hm, -⟩ := Move.emit_eq_iff.1 h
    exact absurd hm Move.leave_ne_error
  · exact (Move.stop_eq_iff.1 h).1

theorem readJava_eq_error (h : readJava rest c = ⟨es, .error fault⟩) : es = [] := by
  unfold readJava at h
  split at h
  · obtain ⟨fs, hm, -⟩ := Move.emit_eq_iff.1 h
    exact absurd hm Move.leave_ne_error
  · exact readReference_eq_error h

theorem readClassEnd_eq_error (h : readClassEnd rest c = ⟨es, .error fault⟩) : es = [] := by
  unfold readClassEnd at h
  split at h
  · obtain ⟨fs, hm, -⟩ := Move.emit_eq_iff.1 h
    exact absurd hm Move.leave_ne_error
  split at h
  · exact absurd h Move.leave_ne_error
  · exact (Move.stop_eq_iff.1 h).1

theorem readClassTail_eq_error (h : readClassTail rest c = ⟨es, .error fault⟩) : es = [] := by
  unfold readClassTail at h
  split at h
  · exact absurd h Move.leave_ne_error
  · exact readClassEnd_eq_error h

theorem readArgument_eq_error (h : readArgument rest c = ⟨es, .error fault⟩) :
    es = [] ∨ es = [.typeArgument .exact] := by
  unfold readArgument at h
  split at h
  · exact Or.inl (Move.stop_eq_iff.1 h).1
  split at h
  · obtain ⟨fs, hm, -⟩ := Move.emit_eq_iff.1 h
    exact absurd hm Move.leave_ne_error
  · dsimp only at h
    split at h
    · obtain ⟨fs, hm, rfl⟩ := Move.emit_eq_iff.1 h
      exact Or.inr (by rw [readReference_eq_error hm])
    · obtain ⟨fs, hm, -⟩ := Move.emit_eq_iff.1 h
      exact absurd hm Move.leave_ne_error

theorem readFormal_eq_error (h : readFormal rest c = ⟨es, .error fault⟩) : es = [] := by
  unfold readFormal at h
  split at h
  · exact (Move.stop_eq_iff.1 h).1
  split at h
  · exact (Move.stop_eq_iff.1 h).1
  · exact absurd h Move.leave_ne_error

/-- A character that may begin a bound or an exception does begin a reference type. -/
theorem readReference_ne_error (hc : c = some 'L' ∨ c = some 'T' ∨ c = some '[') :
    readReference rest c ≠ ⟨es, .error fault⟩ := by
  rcases hc with rfl | rfl | rfl <;> simp [readReference, Move.leave]

/-- **What a step does that stops the reading.** -/
theorem fails_of_step (h : step goals c = ⟨es, .error fault⟩) : Fails goals es := by
  induction goals generalizing es with
  | nil =>
      cases c with
      | none => exact absurd h Move.leave_ne_error
      | some c => exact .of_stop h
  | cons goal rest ih =>
      cases goal with
      | formals =>
          rw [step] at h
          split at h
          · exact absurd h Move.leave_ne_error
          · exact .skip rfl (ih h)
      | firstFormal =>
          rw [step] at h
          split at h
          · exact .of_stop h
          · rw [readFormal_eq_error h]
            exact .atOnce
      | moreFormals =>
          rw [step] at h
          split at h
          · exact absurd h Move.leave_ne_error
          · rw [readFormal_eq_error h]
            exact .atOnce
      | formalName name =>
          rw [step] at h
          split at h
          · exact absurd h Move.leave_ne_error
          split at h
          · obtain ⟨fs, hm, -⟩ := Move.emit_eq_iff.1 h
            exact absurd hm Move.leave_ne_error
          · exact .of_stop h
      | classBound =>
          rw [step] at h
          split at h
          · next hc =>
              obtain ⟨fs, hm, -⟩ := Move.emit_eq_iff.1 h
              exact absurd hm (readReference_ne_error hc)
          · exact .skip rfl (ih h)
      | interfaceBounds =>
          rw [step] at h
          split at h
          · obtain ⟨fs, hm, -⟩ := Move.emit_eq_iff.1 h
            exact absurd hm Move.leave_ne_error
          · exact .skip rfl (ih h)
      | superclass =>
          obtain ⟨fs, hm, rfl⟩ := Move.emit_eq_iff.1 h
          rw [readClass_eq_error hm]
          exact .superclass
      | interfaces =>
          rw [step] at h
          split at h
          · exact .skip rfl (ih h)
          · obtain ⟨fs, hm, rfl⟩ := Move.emit_eq_iff.1 h
            rw [readClass_eq_error hm]
            exact .interface
      | parameters =>
          rw [step] at h
          split at h
          · exact absurd h Move.leave_ne_error
          · exact .of_stop h
      | moreParameters =>
          rw [step] at h
          split at h
          · exact absurd h Move.leave_ne_error
          · obtain ⟨fs, hm, rfl⟩ := Move.emit_eq_iff.1 h
            rw [readJava_eq_error hm]
            exact .parameter
      | returnType =>
          obtain ⟨fs, hm, rfl⟩ := Move.emit_eq_iff.1 h
          split at hm
          · obtain ⟨gs, hl, -⟩ := Move.emit_eq_iff.1 hm
            exact absurd hl Move.leave_ne_error
          · rw [readJava_eq_error hm]
            exact .result
      | exceptions =>
          rw [step] at h
          split at h
          · exact absurd h Move.leave_ne_error
          · exact .skip rfl (ih h)
      | exceptionType =>
          rw [step] at h
          split at h
          · next hc =>
              obtain ⟨fs, hm, -⟩ := Move.emit_eq_iff.1 h
              exact absurd hm (readReference_ne_error (or_assoc.1 (Or.inl hc)))
          · exact .of_stop h
      | javaType =>
          rw [readJava_eq_error h]
          exact .atOnce
      | referenceType =>
          rw [readReference_eq_error h]
          exact .atOnce
      | variableName name =>
          rw [step] at h
          split at h
          · exact absurd h Move.leave_ne_error
          split at h
          · exact .of_stop h
          split at h
          · obtain ⟨fs, hm, -⟩ := Move.emit_eq_iff.1 h
            exact absurd hm Move.leave_ne_error
          · exact .of_stop h
      | className name =>
          rw [step] at h
          split at h
          · exact absurd h Move.leave_ne_error
          split at h
          · exact .of_stop h
          · next hn =>
              obtain ⟨fs, hm, rfl⟩ := Move.emit_eq_iff.1 h
              rw [readClassTail_eq_error hm]
              exact .className hn
      | innerName name =>
          rw [step] at h
          split at h
          · exact absurd h Move.leave_ne_error
          split at h
          · exact .of_stop h
          · next hn =>
              obtain ⟨fs, hm, rfl⟩ := Move.emit_eq_iff.1 h
              obtain ⟨gs, ht, rfl⟩ := Move.emit_eq_iff.1 hm
              rw [readClassTail_eq_error ht]
              exact .innerName hn
      | classEnd =>
          rw [readClassEnd_eq_error h]
          exact .atOnce
      | firstArgument =>
          rw [step] at h
          split at h
          · exact .of_stop h
          · rcases readArgument_eq_error h with rfl | rfl
            · exact .atOnce
            · exact .firstArgument
      | moreArguments =>
          rw [step] at h
          split at h
          · exact absurd h Move.leave_ne_error
          · rcases readArgument_eq_error h with rfl | rfl
            · exact .atOnce
            · exact .moreArguments
      | argumentEnd =>
          obtain ⟨fs, hm, rfl⟩ := Move.emit_eq_iff.1 h
          exact .argumentEnd (ih hm)

/-! ### Scans with or without a fault -/

/-- The events of a scan are those of its steps, and at last those of the end of the text or of a
fault. -/
theorem scan_induction {motive : List Goal → List Char → List Event → Prop}
    (hend : ∀ {goals es}, Ends goals es → motive goals [] es)
    (hfail : ∀ {goals s es}, Fails goals es → motive goals s es)
    (hstep : ∀ {goals c es left offset s}, Steps goals c es left →
      motive left s (scan left offset s).events →
      motive goals (c :: s) (es ++ (scan left offset s).events))
    (goals : List Goal) (offset : Nat) (s : List Char) :
    motive goals s (scan goals offset s).events := by
  induction s generalizing goals offset with
  | nil =>
      rw [scan]
      rcases hm : step goals none with ⟨es, next⟩
      cases next with
      | error fault => exact hfail (fails_of_step hm)
      | ok next => exact hend (ends_of_step hm)
  | cons d s ih =>
      rw [scan]
      rcases hm : step goals (some d) with ⟨es, next⟩
      cases next with
      | error fault => exact hfail (fails_of_step hm)
      | ok next => exact hstep (steps_of_step hm) (ih next (offset + d.utf8Size))

/-- What steps and faults keep holds of all events of a scan. -/
theorem scan_forall {P : Goal → Prop} {Q : Event → Prop} (hk : Keeps P Q)
    (hf : ∀ {goals es}, Fails goals es → (∀ g ∈ goals, P g) → ∀ e ∈ es, Q e)
    (goals : List Goal) (offset : Nat) (s : List Char) :
    (∀ g ∈ goals, P g) → ∀ e ∈ (scan goals offset s).events, Q e := by
  refine scan_induction (motive := fun goals _ es => (∀ g ∈ goals, P g) → ∀ e ∈ es, Q e)
    ?_ hf ?_ goals offset s
  · intro goals es he _ e hm
    rw [he.eq_close hm]
    exact hk.close
  · intro goals c es left offset s hs ih hg
    obtain ⟨hl, he⟩ := hs.kept hk hg
    exact List.forall_mem_append.2 ⟨he, ih hl⟩

end RecordRepair.Signature
