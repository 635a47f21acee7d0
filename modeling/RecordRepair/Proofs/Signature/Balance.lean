import RecordRepair.Proofs.Signature.Depths
import RecordRepair.Proofs.Signature.Printing

/-! # Balance while printing

A place and a printer count open structures each on its own: a place keeps their number, a printer
keeps a frame for each of them.  They agree about any events whatever, also about those that no
walk has.

* `IsBalanced es`: no `close` comes before what it closes, and nothing is left open.
* `OutOfBalance answer`: an answer is a refusal for want of balance.  Places have no other refusals,
  printers have some.
* `Printer.Counts n e answer`: how a printer with `n` frames may answer an event.  The frames change
  as the depth of a place does, and only a `close` with nothing to close is out of balance.
* `Printer.counts_write`: so a printer answers every event.
* `Printer.level?_of_writeAll`: so there are as many frames as the level after the events so far.
* `printer_agrees_with_place`: a printer and a place find the same events, and the same ends, out of
  balance. -/

namespace RecordRepair.Signature

variable {α : Type} {es : List Event} {e : Event} {n m : Nat} {p q : Printer} {place : Place}
  {text : String} {fault : FormatError}

/-! ### Balanced events -/

/-- Each `close` comes behind what it closes, and everything that is opened is closed. -/
structure IsBalanced (es : List Event) : Prop where
  closes_le : ∀ k, (es.take k).count .close ≤ (es.take k).countP Event.opens
  closes_eq : es.count .close = es.countP Event.opens

/-- The level rises with what is opened and falls with what is closed. -/
theorem add_countP_opens_of_level? (h : level? n es = some m) :
    n + es.countP Event.opens = m + es.count .close := by
  induction es generalizing n with
  | nil =>
      obtain rfl := Option.some.inj h
      rfl
  | cons e es ih =>
      obtain ⟨hc, h⟩ := level?_cons_eq_some_iff.1 h
      have hes := ih h
      rw [List.countP_cons, List.count_cons]
      by_cases he : e = .close
      · subst he
        simp [Place.depthAfter, Event.opens] at hc hes ⊢
        omega
      · cases ho : e.opens <;> simp [Place.depthAfter, ho, he] at hes ⊢ <;> omega

/-- Events that end where nothing is open are balanced, since each beginning of them has a level
too. -/
theorem isBalanced_of_level? (h : level? 0 es = some 0) : IsBalanced es := by
  refine ⟨fun k => ?_, ?_⟩
  · obtain ⟨m, hm, -⟩ := level?_take h k
    have := add_countP_opens_of_level? hm
    omega
  · have := add_countP_opens_of_level? h
    omega

/-! ### Refusals for want of balance -/

/-- An answer is a refusal for want of balance. -/
def OutOfBalance (answer : Except FormatError α) : Prop :=
  ∃ fault, answer = .error fault ∧ fault.isUnbalanced = true

@[simp] theorem outOfBalance_error :
    OutOfBalance (.error fault : Except FormatError α) ↔ fault.isUnbalanced = true := by
  simp [OutOfBalance]

@[simp] theorem not_outOfBalance_ok {a : α} : ¬ OutOfBalance (.ok a : Except FormatError α) := by
  simp [OutOfBalance]

/-- A place refuses nothing but a `close` with nothing to close. -/
theorem Place.apply_eq_error_iff : place.apply text e = .error fault ↔
    fault = .unbalanced text none ∧ e = .close ∧ place.depth = 0 := by
  by_cases h : e = .close ∧ place.depth = 0
  · simp [apply, underflows, h, eq_comm]
  · simp [apply_eq_ok text h, h]

theorem Place.finish_eq_error_iff : place.finish text = .error fault ↔
    fault = .unbalanced text none ∧ place.depth ≠ 0 := by
  by_cases h : place.depth = 0
  · simp [finish, h]
  · simp [finish, h, eq_comm]

/-! ### How a printer answers an event -/

namespace Printer

@[simp] theorem not_outOfBalance_refuse {defect : Defect} :
    ¬ OutOfBalance (p.refuse defect : Except FormatError α) := by
  simp [refuse, FormatError.isUnbalanced]

@[simp] theorem frames_put {t : String} : (p.put t).frames = p.frames := rfl

@[simp] theorem frames_release : p.release.frames = p.frames :=
  congrArg Outline.frames outline_release

@[simp] theorem frames_closeFormals : p.closeFormals.frames = p.frames := by
  unfold closeFormals
  split <;> rfl

@[simp] theorem frames_openParameters : p.openParameters.frames = p.frames := by
  unfold openParameters
  split <;> rfl

@[simp] theorem frames_settle : (p.settle e).frames = p.frames := by
  unfold settle
  split
  · rfl
  · exact frames_release

/-- How a printer with some open structures may answer an event.  If it accepts the event, their
number changes as the depth of a place does.  It finds the event out of balance just if that is a
`close` and nothing is open. -/
structure Counts (n : Nat) (e : Event) (answer : Except FormatError Printer) : Prop where
  length_frames : ∀ q, answer = .ok q → q.frames.length = Place.depthAfter n e
  outOfBalance_iff : OutOfBalance answer ↔ e = .close ∧ n = 0

theorem counts_ok (hq : q.frames.length = Place.depthAfter n e) (he : ¬ (e = .close ∧ n = 0)) :
    Counts n e (.ok q) := by
  refine ⟨fun r hr => ?_, by simp only [not_outOfBalance_ok, he]⟩
  obtain rfl := Except.ok.inj hr
  exact hq

theorem counts_refuse {defect : Defect} (he : ¬ (e = .close ∧ n = 0)) :
    Counts n e (p.refuse defect) := by
  refine ⟨fun q hq => ?_, by simp only [not_outOfBalance_refuse, he]⟩
  cases hq

theorem counts_mark (ho : e.opens = false) (he : e ≠ .close) (hq : q.frames = p.frames) :
    Counts p.frames.length e (.ok q) :=
  counts_ok (by simp [Place.depthAfter, ho, he, hq]) fun h => he h.1

theorem counts_close {frame : Frame} (hf : p.frames = frame :: q.frames) :
    Counts p.frames.length .close (.ok q) := by
  rw [hf]
  exact counts_ok (by simp [Place.depthAfter, Event.opens]) (by simp)

/-- The list of type arguments is no structure of its own: what an event in it does to the frames is
left to the event. -/
theorem openArguments_counts {change : Printer → Printer} (he : e ≠ .close)
    (hc : ∀ q : Printer, (change q).frames.length = Place.depthAfter q.frames.length e) :
    Counts p.frames.length e (p.openArguments.map change) := by
  unfold openArguments
  split
  · exact counts_ok (hc p) fun h => he h.1
  · next frames hf => exact counts_ok (by rw [hc, hf]; rfl) fun h => he h.1
  · exact counts_refuse fun h => he h.1

theorem writeFormal_counts (p : Printer) (name : String) :
    Counts p.frames.length (.formalParameter name) (p.writeFormal name) := by
  unfold writeFormal
  split
  · exact counts_mark rfl (by simp) rfl
  · exact counts_mark rfl (by simp) rfl
  · exact counts_refuse (by simp)

theorem writeClose_counts (p : Printer) : Counts p.frames.length .close p.writeClose := by
  unfold writeClose
  split
  · next hf =>
      refine ⟨fun q hq => ?_, by simp [hf, FormatError.isUnbalanced]⟩
      cases hq
  · next frames hf => exact counts_close hf
  · next hasArguments frames hf => exact counts_close hf

theorem writeSettled_counts (p : Printer) (e : Event) :
    Counts p.frames.length e (p.writeSettled e) := by
  cases e with
  | formalParameter name => exact writeFormal_counts p name
  | close => exact writeClose_counts p
  | superclass | interface | parameterType | returnType =>
      exact counts_mark rfl (by simp) (by simp)
  | classType name => exact counts_ok rfl (by simp)
  | innerClassType name =>
      rw [writeSettled]
      split
      · exact counts_ok rfl (by simp)
      · exact counts_refuse (by simp)
  | typeArgument w => exact openArguments_counts (by simp) fun _ => rfl
  | unboundedArgument => exact openArguments_counts (by simp) fun _ => rfl
  | _ => exact counts_mark rfl (by simp) rfl

/-- **A printer counts open structures as a place does**, whatever the event and the printer. -/
theorem counts_write (p : Printer) (e : Event) : Counts p.frames.length e (p.write e) := by
  have h := writeSettled_counts (p.settle e) e
  rwa [frames_settle] at h

/-- The end is out of balance where something is open; an open list is a fault of another kind. -/
theorem finish_outOfBalance_iff : OutOfBalance p.finish ↔ p.frames ≠ [] := by
  unfold finish
  dsimp only
  rw [frames_release]
  split
  · next hf => simp [FormatError.isUnbalanced, hf]
  · next hf =>
      split
      · simpa using hf
      · split <;> simpa using hf

theorem level?_of_writeAll (h : p.writeAll es = .ok q) :
    level? p.frames.length es = some q.frames.length := by
  induction es generalizing p with
  | nil =>
      cases h
      rfl
  | cons e es ih =>
      rw [writeAll] at h
      have hcounts := counts_write p e
      cases hw : p.write e with
      | error fault =>
          rw [hw] at h
          cases h
      | ok r =>
          rw [hw] at h hcounts
          refine level?_cons_eq_some_iff.2 ⟨?_, ?_⟩
          · rw [← hcounts.outOfBalance_iff]
            exact not_outOfBalance_ok
          · rw [← hcounts.length_frames r rfl]
            exact ih h

end Printer

/-! ### A printer beside a place -/

theorem foldlM_apply_of_writeAll (kind : Kind) (text : String)
    (h : Printer.empty.writeAll es = .ok p) : ∃ place,
      es.foldlM (Place.apply text) (.start kind) = .ok place ∧ place.depth = p.frames.length :=
  foldlM_apply_of_level? text (.start kind) (Printer.level?_of_writeAll h)

theorem Printer.outOfBalance_write_iff (h : p.frames.length = place.depth) (text : String)
    (e : Event) : OutOfBalance (p.write e) ↔ ∃ fault, place.apply text e = .error fault := by
  simp only [(p.counts_write e).outOfBalance_iff, Place.apply_eq_error_iff, exists_eq_left, h]

theorem Printer.outOfBalance_finish_iff (h : p.frames.length = place.depth) (text : String) :
    OutOfBalance p.finish ↔ ∃ fault, place.finish text = .error fault := by
  simp only [finish_outOfBalance_iff, Place.finish_eq_error_iff, exists_eq_left, ← h, ne_eq,
    List.length_eq_zero_iff]

/-- What a printer takes for a complete signature closes all that it opens. -/
theorem isBalanced_of_printAll {signature : String} (h : printAll es = .ok signature) :
    IsBalanced es := by
  rw [printAll] at h
  cases hp : Printer.empty.writeAll es with
  | error fault =>
      rw [hp] at h
      cases h
  | ok p =>
      rw [hp] at h
      have hf : p.frames = [] := by
        by_contra hf
        obtain ⟨fault, hfault, -⟩ := Printer.finish_outOfBalance_iff.2 hf
        rw [Except.bind, hfault] at h
        cases h
      have hl := Printer.level?_of_writeAll hp
      rw [hf] at hl
      exact isBalanced_of_level? hl

/-- **A printer and a place agree on balance**, whatever the events.  As long as a printer accepts
them, a place does so too, and the printer has as many frames as the place is deep.  Then the two
find the same next events out of balance, and the end just where the other does.  The first event
that a place refuses is a `close`; the printer finds it out of balance as well, unless it has refused
an event before.  So events that can be printed are balanced. -/
theorem printer_agrees_with_place (kind : Kind) (text : String) (es : List Event) :
    (∀ printer, Printer.empty.writeAll es = .ok printer → ∃ place,
        es.foldlM (Place.apply text) (.start kind) = .ok place ∧
          printer.frames.length = place.depth ∧
          (∀ e, OutOfBalance (printer.write e) ↔ ∃ fault, place.apply text e = .error fault) ∧
          (OutOfBalance printer.finish ↔ ∃ fault, place.finish text = .error fault)) ∧
      (∀ place e fault, es.foldlM (Place.apply text) (.start kind) = .ok place →
        place.apply text e = .error fault → e = .close ∧
          ((∃ earlier, Printer.empty.writeAll es = .error earlier) ∨
            ∃ printer, Printer.empty.writeAll es = .ok printer ∧
              OutOfBalance (printer.write e))) ∧
      ∀ signature, printAll es = .ok signature → IsBalanced es := by
  refine ⟨fun printer hp => ?_, fun place e fault hplace hfault => ?_,
    fun signature h => isBalanced_of_printAll h⟩
  · obtain ⟨place, hplace, hdepth⟩ := foldlM_apply_of_writeAll kind text hp
    exact ⟨place, hplace, hdepth.symm, Printer.outOfBalance_write_iff hdepth.symm text,
      Printer.outOfBalance_finish_iff hdepth.symm text⟩
  · refine ⟨(Place.apply_eq_error_iff.1 hfault).2.1, ?_⟩
    cases hp : Printer.empty.writeAll es with
    | error earlier => exact Or.inl ⟨earlier, rfl⟩
    | ok printer =>
        obtain ⟨last, hlast, hdepth⟩ := foldlM_apply_of_writeAll kind text hp
        obtain rfl : place = last := Except.ok.inj (hplace.symm.trans hlast)
        exact Or.inr ⟨printer, rfl,
          (Printer.outOfBalance_write_iff hdepth.symm text e).2 ⟨fault, hfault⟩⟩

/-- An exception type alone, with an argument that stands for nothing, and one `close` too many. -/
theorem printer_agrees_with_place_exception :
    printAll [.exceptionType, .classType "p/A", .typeArgument .exact, .close, .close] =
        .ok "^Lp/A<>;" ∧
      IsBalanced [.exceptionType, .classType "p/A", .typeArgument .exact, .close, .close] ∧
      ∃ place,
        [.exceptionType, .classType "p/A", .typeArgument .exact, .close, .close].foldlM
            (Place.apply "") (.start .fieldKind) = .ok place ∧
          place.depth = 0 ∧ ∃ fault, place.apply "" .close = .error fault := by
  have hprint : printAll [.exceptionType, .classType "p/A", .typeArgument .exact, .close, .close] =
      .ok "^Lp/A<>;" := by
    decide
  obtain ⟨hagree, -, hbalanced⟩ := printer_agrees_with_place .fieldKind ""
    [.exceptionType, .classType "p/A", .typeArgument .exact, .close, .close]
  have hwrite : Printer.empty.writeAll
      [.exceptionType, .classType "p/A", .typeArgument .exact, .close, .close] =
        .ok ⟨"^Lp/A<>", .notStarted, .notStarted, [], true⟩ := by
    decide
  obtain ⟨place, hplace, hdepth, hnext, -⟩ := hagree _ hwrite
  exact ⟨hprint, hbalanced _ hprint, place, hplace, hdepth.symm,
    (hnext .close).1 ⟨_, rfl, rfl⟩⟩

end RecordRepair.Signature
