import RecordRepair.Signature.Walk

/-! # Readings of signatures

`scan` reads a text together with the offsets of its faults.  Where no fault is met the offsets do
not matter, and a reading is put together from the readings of the pieces of its text.

* `Reads g s es h`: reading `s` from the goals `g` on gives the events `es` and leaves the goals
  `h`.
* `Completes g s es`: the text may end behind `s`, and `es` are all events of the reading.
* `completes_append_iff` cuts a complete reading anywhere.
* `scan_eq_iff` and `walk_eq_iff` say that the complete readings are the scans and the walks without
  a fault.

The lemmas on the helpers of `step` (`readReference_eq_ok_iff` and so on) say once which characters
a helper takes, what it emits then and what it leaves. -/

namespace RecordRepair.Signature

variable {goals rest left : List Goal} {events : List Event} {c : Option Char}

/-! ### Moves and scans -/

@[simp] theorem Move.next_leave : (Move.leave goals).next = .ok goals := rfl

@[simp] theorem Move.next_stop {fault : Fault} : (Move.stop fault).next = .error fault := rfl

@[simp] theorem Move.next_refuse {defect : Defect} :
    (Move.refuse defect c).next = .error (.unexpected defect c) := rfl

@[simp] theorem Move.next_emit {event : Event} {move : Move} :
    (move.emit event).next = move.next := rfl

@[simp] theorem Move.leave_eq_ok_iff :
    Move.leave goals = ⟨events, .ok left⟩ ↔ events = [] ∧ left = goals := by
  simp [Move.leave, eq_comm]

@[simp] theorem Move.stop_ne_ok {fault : Fault} : Move.stop fault ≠ ⟨events, .ok left⟩ := by
  simp [Move.stop]

@[simp] theorem Move.refuse_ne_ok {defect : Defect} :
    Move.refuse defect c ≠ ⟨events, .ok left⟩ := Move.stop_ne_ok

@[simp] theorem Move.emit_eq_iff {event : Event} {move : Move} {next : Except Fault (List Goal)} :
    Move.emit event move = ⟨events, next⟩ ↔ ∃ es, move = ⟨es, next⟩ ∧ events = event :: es := by
  obtain ⟨es, n⟩ := move
  simp only [Move.emit, Move.mk.injEq]
  constructor
  · rintro ⟨rfl, rfl⟩
    exact ⟨es, ⟨rfl, rfl⟩, rfl⟩
  · rintro ⟨_, ⟨rfl, rfl⟩, rfl⟩
    exact ⟨rfl, rfl⟩

theorem Scan.prepend_eq_iff {scan : Scan} {es : List Event} {fault : Option (Nat × Fault)} :
    scan.prepend es = ⟨events, fault⟩ ↔ ∃ fs, scan = ⟨fs, fault⟩ ∧ events = es ++ fs := by
  obtain ⟨fs, f⟩ := scan
  simp only [Scan.prepend, Scan.mk.injEq]
  constructor
  · rintro ⟨rfl, rfl⟩
    exact ⟨fs, ⟨rfl, rfl⟩, rfl⟩
  · rintro ⟨_, ⟨rfl, rfl⟩, rfl⟩
    exact ⟨rfl, rfl⟩

/-! ### What the helpers take -/

theorem continues?_eq_some_iff {ends : Char → Bool} {d : Char} :
    continues? ends c = some d ↔ c = some d ∧ ends d = false := by
  unfold continues?
  rw [Option.filter_eq_some_iff]
  simp

theorem readClass_eq_ok_iff : readClass rest c = ⟨events, .ok left⟩ ↔
    c = some 'L' ∧ events = [] ∧ left = .className "" :: rest := by
  unfold readClass
  split <;> simp_all

theorem readReference_eq_ok_iff : readReference rest c = ⟨events, .ok left⟩ ↔
    (c = some 'L' ∧ events = [] ∧ left = .className "" :: rest) ∨
    (c = some 'T' ∧ events = [] ∧ left = .variableName "" :: rest) ∨
    (c = some '[' ∧ events = [.arrayType] ∧ left = .javaType :: rest) := by
  unfold readReference
  split
  · simp_all
  split
  · simp_all
  split <;> simp_all [and_comm]

theorem readJava_eq_ok_iff : readJava rest c = ⟨events, .ok left⟩ ↔
    (∃ b : BaseType, c = some b.letter ∧ events = [.baseType b] ∧ left = rest) ∨
    readReference rest c = ⟨events, .ok left⟩ := by
  unfold readJava
  cases h : c.bind BaseType.ofLetter? with
  | none =>
      constructor
      · exact Or.inr
      · rintro (⟨b, rfl, -, -⟩ | h')
        · simp at h
        · exact h'
  | some b =>
      obtain ⟨d, rfl, hd⟩ := Option.bind_eq_some_iff.1 h
      constructor
      · intro he
        simp only [Move.emit_eq_iff, Move.leave_eq_ok_iff] at he
        obtain ⟨_, ⟨rfl, rfl⟩, rfl⟩ := he
        exact Or.inl ⟨b, by rw [BaseType.letter_of_ofLetter? hd], rfl, rfl⟩
      · rintro (⟨b', hb, rfl, rfl⟩ | hr)
        · obtain rfl := Option.some.inj hb
          rw [BaseType.ofLetter?_letter] at hd
          obtain rfl := Option.some.inj hd
          simp
        · -- none of the characters that begin a reference type is the letter of a primitive type
          rw [readReference_eq_ok_iff] at hr
          rcases hr with ⟨hc, -⟩ | ⟨hc, -⟩ | ⟨hc, -⟩
          all_goals
            obtain rfl := Option.some.inj hc
            simp [BaseType.ofLetter?] at hd

theorem readClassEnd_eq_ok_iff : readClassEnd rest c = ⟨events, .ok left⟩ ↔
    (c = some ';' ∧ events = [.close] ∧ left = rest) ∨
    (c = some '.' ∧ events = [] ∧ left = .innerName "" :: rest) := by
  unfold readClassEnd
  split
  · simp_all [and_comm]
  split <;> simp_all

theorem readClassTail_eq_ok_iff : readClassTail rest c = ⟨events, .ok left⟩ ↔
    (c = some '<' ∧ events = [] ∧ left = .firstArgument :: .classEnd :: rest) ∨
    readClassEnd rest c = ⟨events, .ok left⟩ := by
  unfold readClassTail
  split
  · simp_all [readClassEnd_eq_ok_iff]
  · simp_all

theorem Wildcard.marker_ofChar {d : Char} (h : Wildcard.ofChar d ≠ .exact) :
    (Wildcard.ofChar d).marker? = some d := by
  unfold Wildcard.ofChar at h ⊢
  split
  · next hd => rw [hd]; rfl
  split
  · next hd => rw [hd]; rfl
  · next h₁ h₂ => simp [h₁, h₂] at h

theorem readArgument_cases (h : readArgument rest c = ⟨events, .ok left⟩) :
    (c = some '*' ∧ events = [.unboundedArgument] ∧ left = .moreArguments :: rest) ∨
    (∃ w, w.marker? = c ∧ c.isSome ∧ events = [.typeArgument w] ∧
      left = .referenceType :: .argumentEnd :: .moreArguments :: rest) ∨
    ∃ es, readReference (.argumentEnd :: .moreArguments :: rest) c = ⟨es, .ok left⟩ ∧
      events = .typeArgument .exact :: es := by
  cases c with
  | none => simp [readArgument] at h
  | some c =>
      simp only [readArgument] at h
      split at h
      · next hc =>
          simp only [Move.emit_eq_iff, Move.leave_eq_ok_iff] at h
          obtain ⟨_, ⟨rfl, rfl⟩, rfl⟩ := h
          exact Or.inl ⟨by rw [hc], rfl, rfl⟩
      · split at h
        · simp only [Move.emit_eq_iff] at h
          exact Or.inr (Or.inr h)
        · rename_i hw
          simp only [Move.emit_eq_iff, Move.leave_eq_ok_iff] at h
          obtain ⟨_, ⟨rfl, rfl⟩, rfl⟩ := h
          exact Or.inr (Or.inl ⟨_, Wildcard.marker_ofChar hw, rfl, rfl, rfl⟩)

theorem readFormal_eq_ok_iff {d : Char} : readFormal rest (some d) = ⟨events, .ok left⟩ ↔
    endsName d = false ∧ events = [] ∧ left = .formalName (String.singleton d) :: rest := by
  rw [readFormal]
  split <;> simp_all

/-- At the end of a text nothing is left but what may be left out. -/
theorem step_none_next (h : (step goals none).next = .ok left) : left = [] := by
  induction goals with
  | nil => simpa [step] using h.symm
  | cons goal rest ih =>
      cases goal
      all_goals
        simp [step, readClass, readReference, readJava, readFormal, readArgument, continues?,
          readClassTail, readClassEnd] at h
      all_goals first
        | exact ih h
        | split at h <;> simp at h

/-! ### Readings -/

/-- Reading a text from some goals on gives some events and leaves some goals. -/
inductive Reads : List Goal → List Char → List Event → List Goal → Prop
  | refl (goals : List Goal) : Reads goals [] [] goals
  | step {goals next left : List Goal} {c : Char} {s : List Char} {es fs : List Event} :
      Signature.step goals (some c) = ⟨es, .ok next⟩ → Reads next s fs left →
      Reads goals (c :: s) (es ++ fs) left

theorem Reads.single {d : Char} (h : Signature.step goals (some d) = ⟨events, .ok left⟩) :
    Reads goals [d] events left := by
  have := Reads.step h (Reads.refl left)
  simpa using this

theorem Reads.trans {g₁ g₂ g₃ : List Goal} {s t : List Char} {es fs : List Event}
    (h₁ : Reads g₁ s es g₂) (h₂ : Reads g₂ t fs g₃) : Reads g₁ (s ++ t) (es ++ fs) g₃ := by
  induction h₁ with
  | refl _ => simpa using h₂
  | step hs _ ih =>
      rw [List.cons_append, List.append_assoc]
      exact Reads.step hs (ih h₂)

/-- Reading a text from some goals on gives some events, and the text may end there. -/
inductive Completes : List Goal → List Char → List Event → Prop
  | stop {goals : List Goal} {es : List Event} :
      Signature.step goals none = ⟨es, .ok []⟩ → Completes goals [] es
  | step {goals next : List Goal} {c : Char} {s : List Char} {es fs : List Event} :
      Signature.step goals (some c) = ⟨es, .ok next⟩ → Completes next s fs →
      Completes goals (c :: s) (es ++ fs)

theorem completes_nil_iff :
    Completes goals [] events ↔ Signature.step goals none = ⟨events, .ok []⟩ :=
  ⟨fun h => by cases h; assumption, Completes.stop⟩

theorem completes_cons_iff {d : Char} {s : List Char} :
    Completes goals (d :: s) events ↔ ∃ next es fs,
      Signature.step goals (some d) = ⟨es, .ok next⟩ ∧ Completes next s fs ∧
        events = es ++ fs := by
  constructor
  · intro h
    cases h with
    | step hs hc => exact ⟨_, _, _, hs, hc, rfl⟩
  · rintro ⟨next, es, fs, hs, hc, rfl⟩
    exact Completes.step hs hc

/-- A complete reading may be cut anywhere. -/
theorem completes_append_iff {s t : List Char} :
    Completes goals (s ++ t) events ↔ ∃ next es fs,
      Reads goals s es next ∧ Completes next t fs ∧ events = es ++ fs := by
  induction s generalizing goals events with
  | nil =>
      constructor
      · intro h
        exact ⟨goals, [], events, Reads.refl _, h, rfl⟩
      · rintro ⟨next, es, fs, hr, hc, rfl⟩
        cases hr
        exact hc
  | cons d s ih =>
      rw [List.cons_append, completes_cons_iff]
      constructor
      · rintro ⟨g, es, fs, hs, hc, rfl⟩
        obtain ⟨next, es', fs', hr, hc', rfl⟩ := ih.1 hc
        exact ⟨next, es ++ es', fs', Reads.step hs hr, hc', by rw [List.append_assoc]⟩
      · rintro ⟨next, es, fs, hr, hc, rfl⟩
        cases hr with
        | @step _ g _ _ _ es₁ es₂ hs hr =>
            exact ⟨g, es₁, es₂ ++ fs, hs, ih.2 ⟨next, es₂, fs, hr, hc, rfl⟩,
              by rw [List.append_assoc]⟩

/-- What has been read decides what the rest is read from. -/
theorem Reads.completes_append {s t : List Char} {es fs : List Event} (h : Reads goals s es left)
    (hc : Completes goals (s ++ t) fs) : ∃ gs, fs = es ++ gs ∧ Completes left t gs := by
  induction h generalizing fs with
  | refl _ => exact ⟨fs, rfl, hc⟩
  | @step goals next left c s es₁ es₂ hs _ ih =>
      obtain ⟨next', es', gs, hs', hc', rfl⟩ := completes_cons_iff.1 hc
      obtain ⟨rfl, hn⟩ := Move.mk.inj (hs.symm.trans hs')
      obtain rfl := Except.ok.inj hn
      obtain ⟨gs, rfl, hg⟩ := ih hc'
      exact ⟨gs, by rw [List.append_assoc], hg⟩

/-! ### Scans and walks -/

theorem scan_eq_iff {offset : Nat} {s : List Char} :
    scan goals offset s = ⟨events, none⟩ ↔ Completes goals s events := by
  induction s generalizing goals offset events with
  | nil =>
      rw [completes_nil_iff, scan]
      rcases hm : step goals none with ⟨es, next⟩
      cases next with
      | error fault => simp
      | ok next =>
          have hn : next = [] := step_none_next (by rw [hm])
          simp [hn]
  | cons d s ih =>
      rw [completes_cons_iff, scan]
      rcases hm : step goals (some d) with ⟨es, next⟩
      cases next with
      | error fault => simp
      | ok next =>
          simp only [Scan.prepend_eq_iff, ih, Move.mk.injEq, Except.ok.injEq]
          constructor
          · rintro ⟨fs, hc, rfl⟩
            exact ⟨next, es, fs, ⟨rfl, rfl⟩, hc, rfl⟩
          · rintro ⟨_, _, fs, ⟨rfl, rfl⟩, hc, rfl⟩
            exact ⟨fs, hc, rfl⟩

theorem walk_eq_iff {kind : Kind} {text : String} :
    walk kind text = ⟨events, none⟩ ↔ Completes kind.goals text.toList events := by
  rw [← @scan_eq_iff _ _ 0]
  rcases hs : scan kind.goals 0 text.toList with ⟨es, fault⟩
  simp [walk, hs]

/-- A walk without an error is a complete reading. -/
theorem completes_of_walk {kind : Kind} {text : String} (h : (walk kind text).error = none) :
    Completes kind.goals text.toList (walk kind text).events :=
  walk_eq_iff.1 (by rw [← h])

end RecordRepair.Signature
