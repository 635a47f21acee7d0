import RecordRepair.Proofs.Signature.Derivation
import RecordRepair.Proofs.Signature.Viability

/-! # What stands behind a complete signature

What has been read of a text does not depend on the rest of it, although a name goes on to the first
character that ends it and some goals ask whether the text ends.  So a signature that is accepted is
read in the same way with more text behind it, and the fault stands where that text begins.

* `Reads.scan_append`: a scan goes on where a reading stops.
* `exists_reads_of_walk`: an accepted signature leaves goals that may all be left out.
* `Ends.step_close`: such goals refuse a `>`, for which they have nothing to close.
* `reads_of_walk_fieldKind`: a field signature leaves no goals at all.
* `walk_append`: text behind a complete signature is caught where it starts. -/

namespace RecordRepair.Signature

variable {goals left : List Goal} {es : List Event} {s : List Char} {kind : Kind} {text : String}

theorem Reads.scan_append (h : Reads goals s es left) (offset : Nat) (t : List Char) :
    scan goals offset (s ++ t) =
      (scan left (offset + (String.ofList s).utf8ByteSize) t).prepend es := by
  induction h generalizing offset with
  | refl goals => simp [Scan.prepend]
  | @step goals next left c s es fs hs _ ih =>
      have hsize : offset + c.utf8Size + (String.ofList s).utf8ByteSize =
          offset + (String.ofList (c :: s)).utf8ByteSize := by
        rw [String.ofList_cons, String.utf8ByteSize_append, String.utf8ByteSize_singleton,
          Nat.add_assoc]
      rw [List.cons_append, scan, hs]
      dsimp only
      rw [ih, hsize]
      simp [Scan.prepend]

theorem walk_append_of_reads (h : Reads kind.goals text.toList es left) (more : String) :
    walk kind (text ++ more) =
      ⟨es ++ (scan left text.utf8ByteSize more.toList).events,
        (scan left text.utf8ByteSize more.toList).fault.map
          fun f => f.2.toError (text ++ more) f.1⟩ := by
  rw [walk, String.toList_append, h.scan_append, Nat.zero_add, String.ofList_toList]
  rfl

/-! ### Goals behind a complete signature -/

theorem exists_reads_of_walk (h : (walk kind text).error = none) : ∃ left es fs,
    Reads kind.goals text.toList es left ∧ Ends left fs ∧ (walk kind text).events = es ++ fs := by
  have hc := completes_of_walk h
  rw [← List.append_nil text.toList, completes_append_iff] at hc
  obtain ⟨left, es, fs, hr, hend, he⟩ := hc
  exact ⟨left, es, fs, hr, ends_of_step (completes_nil_iff.1 hend), he⟩

/-- Goals that may be left out refuse a `>`, ahead of which they complete what they complete at the
end of the text. -/
theorem Ends.step_close (h : Ends goals es) (hi : InterfacesLast goals) :
    ∃ fs, step goals (some '>') = ⟨es ++ fs, .error .unbalanced⟩ := by
  induction h with
  | nil => exact ⟨[], rfl⟩
  | @skip goal goals es ho hends ih =>
      obtain ⟨hb, hrest⟩ := List.pairwise_cons.1 hi
      obtain ⟨fs, hm⟩ := ih hrest
      cases goal with
      | formals => exact ⟨fs, hm⟩
      | classBound => exact ⟨fs, hm⟩
      | interfaceBounds => exact ⟨fs, hm⟩
      | exceptions => exact ⟨fs, hm⟩
      | interfaces =>
          -- a further interface is announced, which would come too early for the goals below
          cases hends with
          | nil => exact ⟨[.interface], rfl⟩
          | skip _ _ => exact absurd rfl (hb _ List.mem_cons_self)
          | argumentEnd _ => exact absurd rfl (hb _ List.mem_cons_self)
      | _ => cases ho
  | argumentEnd _ ih =>
      obtain ⟨fs, hm⟩ := ih (List.pairwise_cons.1 hi).2
      exact ⟨fs, by rw [step, hm]; rfl⟩

theorem reads_of_walk_fieldKind (h : (walk .fieldKind text).error = none) :
    Reads Kind.fieldKind.goals text.toList (walk .fieldKind text).events [] := by
  obtain ⟨tree, hk, hw, hs, he⟩ := (completes_of_walk h).exists_tree
  cases tree with
  | ofClass _ => cases hk
  | ofMethod _ => cases hk
  | ofField type =>
      rw [Tree.isWellFormed, Bool.and_eq_true] at hw
      have hb : Begins (step [.referenceType]) type.chars type.events [] :=
        TypeTree.begins [] type hw.1 hw.2
      rw [← hs, ← he]
      exact hb.reads

/-! ### Text behind a complete signature -/

theorem exists_walk_append_close (h : (walk kind text).error = none) (more : String) :
    ∃ events, walk kind (text ++ ">" ++ more) = ⟨(walk kind text).events ++ events,
      some (.unbalanced (text ++ ">" ++ more) (some text.utf8ByteSize))⟩ := by
  obtain ⟨left, es, fs, hr, hends, he⟩ := exists_reads_of_walk h
  obtain ⟨gs, hstep⟩ := hends.step_close (hr.interfacesLast (interfacesLast_goals kind))
  have hmore : (">" ++ more).toList = '>' :: more.toList := by
    rw [String.toList_append]
    rfl
  -- what is left of the goals completes `gs` and then has nothing to close
  refine ⟨gs, ?_⟩
  rw [String.append_assoc, walk_append_of_reads hr, hmore, scan, hstep, he, List.append_assoc]
  rfl

theorem walk_fieldKind_append (h : (walk .fieldKind text).error = none) {more : String}
    (hmore : more ≠ "") : walk .fieldKind (text ++ more) = ⟨(walk .fieldKind text).events,
      some ((Fault.unexpected .trailingText more.toList.head?).toError (text ++ more)
        text.utf8ByteSize)⟩ := by
  rw [walk_append_of_reads (reads_of_walk_fieldKind h)]
  cases hs : more.toList with
  | nil => exact absurd (String.toList_eq_nil_iff.1 hs) hmore
  | cons c s =>
      rw [scan, step, Move.refuse, Move.stop, List.append_nil]
      rfl

/-- **Text behind a complete signature is caught where it starts.**  With a `>` behind it, a
signature of any kind is read as before, and then the `>` is out of balance.  With any text behind
it, a field signature gives the same events and then an error at its end.  So no field signature
that is accepted begins another one. -/
theorem walk_append (h : (walk kind text).error = none) :
    (∀ more, ∃ events, walk kind (text ++ ">" ++ more) = ⟨(walk kind text).events ++ events,
        some (.unbalanced (text ++ ">" ++ more) (some text.utf8ByteSize))⟩) ∧
      (kind = .fieldKind →
        (∀ more, more ≠ "" → walk kind (text ++ more) = ⟨(walk kind text).events,
          some ((Fault.unexpected .trailingText more.toList.head?).toError (text ++ more)
            text.utf8ByteSize)⟩) ∧
        ∀ longer, text.toList <+: longer.toList → (walk kind longer).error = none →
          longer = text) := by
  refine ⟨exists_walk_append_close h, ?_⟩
  rintro rfl
  refine ⟨fun more hmore => walk_fieldKind_append h hmore, ?_⟩
  rintro longer ⟨s, hs⟩ hlonger
  have htext : longer = text ++ String.ofList s := by
    rw [← String.toList_inj, String.toList_append, String.toList_ofList, hs]
  by_cases hmore : String.ofList s = ""
  · rw [htext, hmore, String.append_empty]
  · rw [htext, walk_fieldKind_append h hmore] at hlonger
    cases hlonger

theorem walk_append_list :
    (walk .fieldKind "Lp/A<TT;>;").error = none ∧
      (walk .fieldKind ("Lp/A<TT;>;" ++ ">" ++ ";")).error =
        some (.unbalanced "Lp/A<TT;>;>;" (some 10)) ∧
      walk .fieldKind ("Lp/A<TT;>;" ++ "TU;") =
        ⟨[.classType "p/A", .typeArgument .exact, .typeVariable "T", .close, .close],
          some (.invalidSignature "Lp/A<TT;>;TU;" 10 .trailingText)⟩ := by
  have h : walk .fieldKind "Lp/A<TT;>;" =
      ⟨[.classType "p/A", .typeArgument .exact, .typeVariable "T", .close, .close], none⟩ := by
    decide
  have herror : (walk .fieldKind "Lp/A<TT;>;").error = none := by rw [h]
  obtain ⟨hclose, hfield⟩ := walk_append herror
  obtain ⟨events, hunbalanced⟩ := hclose ";"
  refine ⟨herror, by rw [hunbalanced]; rfl, ?_⟩
  rw [(hfield rfl).1 "TU;" (by decide), h]
  rfl

end RecordRepair.Signature
