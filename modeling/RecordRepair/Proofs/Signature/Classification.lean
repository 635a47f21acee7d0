import RecordRepair.Proofs.Signature.Viability

/-! # Which fault a character is

A fault depends only on the character that it stands at and on the one before.  A `>` closes a list
that was never opened, unless it stands directly behind the `<` of a list that has to hold
something.  All other characters are defects, and so is the end of the text.

* `Goal.opensList`: the goals that wait for the first element of a list.
* `Behind last goals`: such a goal is on top just if the last character is a `<`, and never below.
  Readings keep this (`Reads.behind`).
* `Move.Refuses`: the helpers of `step` refuse a character by `Fault.unexpected`, which tells a `>`
  and the end of the text from everything else.
* `suits_of_step`: so the fault of a step suits its character.
* `walk_error_classified`: the error of a walk is classified by the character at its offset and the
  one before. -/

namespace RecordRepair.Signature

variable {goals rest left pushed : List Goal} {goal : Goal} {es : List Event} {c : Char}
  {s : List Char} {kind : Kind} {text : String} {error : FormatError}

/-! ### Goals for the first element of a list -/

/-- Whether a goal waits for the first element of a list. -/
def Goal.opensList : Goal → Bool
  | firstFormal => true
  | firstArgument => true
  | _ => false

/-- Whether the next goal waits for the first element of a list. -/
def opensList (goals : List Goal) : Bool := goals.head?.any Goal.opensList

@[simp] theorem opensList_nil : opensList [] = false := rfl

@[simp] theorem opensList_cons : opensList (goal :: rest) = goal.opensList := rfl

theorem opensList_eq_false (h : ∀ g ∈ goals, g.opensList = false) : opensList goals = false := by
  cases goals with
  | nil => rfl
  | cons goal rest => exact h goal List.mem_cons_self

/-- Of the goals behind a character, the next one waits for the first element of a list just if the
character is a `<`, and none of the others does. -/
structure Behind (last : Option Char) (goals : List Goal) : Prop where
  opensList_iff : opensList goals = true ↔ last = some '<'
  below : ∀ g ∈ goals.tail, g.opensList = false

theorem Behind.of_ne (hc : c ≠ '<') (h : ∀ g ∈ goals, g.opensList = false) :
    Behind (some c) goals where
  opensList_iff := by simp [opensList_eq_false h, hc]
  below := fun g hg => h g (List.mem_of_mem_tail hg)

theorem Behind.append (h : Behind (some c) pushed) (hrest : ∀ g ∈ rest, g.opensList = false) :
    Behind (some c) (pushed ++ rest) := by
  cases pushed with
  | nil =>
      have hc : c ≠ '<' := by
        rintro rfl
        exact absurd (h.opensList_iff.2 rfl) (by simp)
      exact .of_ne hc hrest
  | cons goal pushed =>
      exact ⟨h.opensList_iff, List.forall_mem_append.2 ⟨h.below, hrest⟩⟩

theorem ne_open_of_not_endsName (h : endsName c = false) : c ≠ '<' := by
  rintro rfl
  cases h

theorem ne_open_of_not_endsClassName (h : endsClassName c = false) : c ≠ '<' := by
  rintro rfl
  cases h

theorem OpensReference.behind (h : OpensReference c es pushed) : Behind (some c) pushed := by
  cases h <;> exact .of_ne (by decide) (by simp [Goal.opensList])

theorem OpensType.behind (h : OpensType c es pushed) : Behind (some c) pushed := by
  cases h with
  | base b => exact .of_ne (by cases b <;> decide) (List.forall_mem_nil _)
  | reference hr => exact hr.behind

theorem EndsClass.behind (h : EndsClass c es pushed) : Behind (some c) pushed := by
  cases h <;> exact .of_ne (by decide) (by simp [Goal.opensList])

theorem FollowsName.behind (h : FollowsName c es pushed) : Behind (some c) pushed := by
  cases h with
  | arguments => exact ⟨by simp [Goal.opensList], by simp [Goal.opensList]⟩
  | ends he => exact he.behind

theorem OpensArgument.behind (h : OpensArgument c es pushed) : Behind (some c) pushed := by
  cases h with
  | unbounded => exact .of_ne (by decide) (by simp [Goal.opensList])
  | @wildcard w _ hw =>
      refine .of_ne ?_ (by simp [Goal.opensList])
      rintro rfl
      cases w <;> cases hw
  | exact hr => exact hr.behind.append (by simp [Goal.opensList])

/-- A goal that takes a `<` leaves one for the first element of a list, and no other goal does. -/
theorem Acts.behind (h : Acts goal c es pushed) : Behind (some c) pushed := by
  cases h with
  | openFormals => exact ⟨by simp [Goal.opensList], List.forall_mem_nil _⟩
  | firstFormal he => exact .of_ne (ne_open_of_not_endsName he) (by simp [Goal.opensList])
  | moreFormals he => exact .of_ne (ne_open_of_not_endsName he) (by simp [Goal.opensList])
  | formalName he => exact .of_ne (ne_open_of_not_endsName he) (by simp [Goal.opensList])
  | classBound h => exact h.behind
  | parameter h => exact h.behind.append (by simp [Goal.opensList])
  | result h => exact h.behind
  | exceptionType h _ => exact h.behind.append (by simp [Goal.opensList])
  | javaType h => exact h.behind
  | referenceType h => exact h.behind
  | variableName he => exact .of_ne (ne_open_of_not_endsName he) (by simp [Goal.opensList])
  | className he => exact .of_ne (ne_open_of_not_endsClassName he) (by simp [Goal.opensList])
  | classEnd _ h => exact h.behind
  | innerName he => exact .of_ne (ne_open_of_not_endsName he) (by simp [Goal.opensList])
  | innerEnd _ h => exact h.behind
  | afterArguments h => exact h.behind
  | firstArgument h => exact h.behind
  | moreArguments h => exact h.behind
  | _ => exact .of_ne (by decide) (by simp [Goal.opensList])

theorem Steps.behind (h : Steps goals c es left) (hb : ∀ g ∈ goals.tail, g.opensList = false) :
    Behind (some c) left := by
  induction h with
  | act ha => exact ha.behind.append hb
  | skip _ _ ih => exact ih fun g hg => hb g (List.mem_of_mem_tail hg)

/-- Readings keep it that goals are behind the last character. -/
theorem Reads.behind (h : Reads goals s es left) {last : Option Char} (hb : Behind last goals) :
    Behind (s.getLast?.or last) left := by
  induction h generalizing last with
  | refl _ => exact hb
  | @step goals next left c s es fs hs _ ih =>
      have hlast : (c :: s).getLast?.or last = s.getLast?.or (some c) := by
        rw [List.getLast?_cons]
        cases s.getLast? <;> rfl
      rw [hlast]
      exact ih ((steps_of_step hs).behind hb.below)

theorem behind_goals (kind : Kind) : Behind none kind.goals := by
  cases kind <;> exact ⟨by simp [Kind.goals, Goal.opensList], by simp [Kind.goals, Goal.opensList]⟩

/-! ### Refused characters -/

/-- A defect that says what has to stand where something else does. -/
def Defect.isExpectation : Defect → Bool
  | endOfText => false
  | emptyFormals => false
  | emptyArguments => false
  | _ => true

theorem Defect.message_eq_endOfText_iff {defect : Defect} :
    defect.message = "unexpected end of signature" ↔ defect = .endOfText := by
  cases defect <;> simp [message]

/-- If a move stops, something else had to stand there. -/
def Move.Refuses (c : Option Char) (move : Move) : Prop :=
  ∀ fault, move.next = .error fault →
    ∃ defect : Defect, defect.isExpectation = true ∧ fault = .unexpected defect c

variable {d : Option Char} {move : Move} {fault : Fault}

theorem Move.refuses_leave : (Move.leave goals).Refuses d := by
  intro fault h
  cases h

theorem Move.refuses_refuse {defect : Defect} (h : defect.isExpectation = true) :
    (Move.refuse defect d).Refuses d := by
  intro fault hf
  obtain rfl := Except.error.inj hf
  exact ⟨defect, h, rfl⟩

theorem Move.Refuses.emit {event : Event} (h : move.Refuses d) : (move.emit event).Refuses d := h

theorem refuses_readClass : (readClass rest d).Refuses d := by
  unfold readClass
  split
  · exact Move.refuses_leave
  · exact Move.refuses_refuse rfl

theorem refuses_readReference : (readReference rest d).Refuses d := by
  unfold readReference
  split
  · exact Move.refuses_leave
  split
  · exact Move.refuses_leave
  split
  · exact Move.refuses_leave.emit
  · exact Move.refuses_refuse rfl

theorem refuses_readJava : (readJava rest d).Refuses d := by
  unfold readJava
  split
  · exact Move.refuses_leave.emit
  · exact refuses_readReference

theorem refuses_readClassEnd : (readClassEnd rest d).Refuses d := by
  unfold readClassEnd
  split
  · exact Move.refuses_leave.emit
  split
  · exact Move.refuses_leave
  · exact Move.refuses_refuse rfl

theorem refuses_readClassTail : (readClassTail rest d).Refuses d := by
  unfold readClassTail
  split
  · exact Move.refuses_leave
  · exact refuses_readClassEnd

theorem refuses_readArgument : (readArgument rest d).Refuses d := by
  unfold readArgument
  split
  · exact Move.refuses_refuse rfl
  split
  · exact Move.refuses_leave.emit
  dsimp only
  split
  · exact refuses_readReference.emit
  · exact Move.refuses_leave.emit

theorem refuses_readFormal : (readFormal rest d).Refuses d := by
  unfold readFormal
  split
  · exact Move.refuses_refuse rfl
  split
  · exact Move.refuses_refuse rfl
  · exact Move.refuses_leave

theorem refuses_continues? {ends : Char → Bool} {next : Char → List Goal} (h : move.Refuses d) :
    (match continues? ends d with
      | some e => Move.leave (next e)
      | none => move).Refuses d := by
  split
  · exact Move.refuses_leave
  · exact h

/-- Where no element of a list is due, a character is refused since something else has to stand
there. -/
theorem refuses_step (h : ∀ g ∈ goals, g.opensList = false) : (step goals d).Refuses d := by
  induction goals with
  | nil =>
      cases d with
      | none => exact Move.refuses_leave
      | some c => exact Move.refuses_refuse rfl
  | cons goal rest ih =>
      obtain ⟨hg, hrest⟩ := List.forall_mem_cons.1 h
      cases goal with
      | formals =>
          rw [step]
          split
          · exact Move.refuses_leave
          · exact ih hrest
      | firstFormal => cases hg
      | moreFormals =>
          rw [step]
          split
          · exact Move.refuses_leave
          · exact refuses_readFormal
      | formalName name =>
          rw [step]
          refine refuses_continues? ?_
          split
          · exact Move.refuses_leave.emit
          · exact Move.refuses_refuse rfl
      | classBound =>
          rw [step]
          split
          · exact refuses_readReference.emit
          · exact ih hrest
      | interfaceBounds =>
          rw [step]
          split
          · exact Move.refuses_leave.emit
          · exact ih hrest
      | superclass => exact refuses_readClass.emit
      | interfaces =>
          rw [step]
          split
          · exact ih hrest
          · exact refuses_readClass.emit
      | parameters =>
          rw [step]
          split
          · exact Move.refuses_leave
          · exact Move.refuses_refuse rfl
      | moreParameters =>
          rw [step]
          split
          · exact Move.refuses_leave
          · exact refuses_readJava.emit
      | returnType =>
          rw [step]
          split
          · exact Move.refuses_leave.emit.emit
          · exact refuses_readJava.emit
      | exceptions =>
          rw [step]
          split
          · exact Move.refuses_leave
          · exact ih hrest
      | exceptionType =>
          rw [step]
          split
          · exact refuses_readReference.emit
          · exact Move.refuses_refuse rfl
      | javaType => exact refuses_readJava
      | referenceType => exact refuses_readReference
      | variableName name =>
          rw [step]
          refine refuses_continues? ?_
          split
          · exact Move.refuses_refuse rfl
          split
          · exact Move.refuses_leave.emit
          · exact Move.refuses_refuse rfl
      | className name =>
          rw [step]
          refine refuses_continues? ?_
          split
          · exact Move.refuses_refuse rfl
          · exact refuses_readClassTail.emit
      | innerName name =>
          rw [step]
          refine refuses_continues? ?_
          split
          · exact Move.refuses_refuse rfl
          · exact refuses_readClassTail.emit.emit
      | classEnd => exact refuses_readClassEnd
      | firstArgument => cases hg
      | moreArguments =>
          rw [step]
          split
          · exact Move.refuses_leave
          · exact refuses_readArgument
      | argumentEnd => exact (ih hrest).emit

/-! ### The fault of a step -/

/-- A fault is the one of its character: a `>` is out of balance unless an element of a list is due,
the end of the text breaks the signature off, and only a `>` makes a list empty. -/
def Fault.Suits (opened : Bool) (c : Option Char) : Fault → Prop
  | unbalanced => c = some '>' ∧ opened = false
  | defect d => ¬ (c = some '>' ∧ opened = false) ∧ (d = .endOfText ↔ c = none) ∧
      ((d = .emptyFormals ∨ d = .emptyArguments) ↔ c = some '>' ∧ opened = true)

theorem Move.Refuses.suits {opened : Bool} (hm : move.Refuses d) (h : move.next = .error fault)
    (hd : d = some '>' → opened = false) : fault.Suits opened d := by
  obtain ⟨defect, he, rfl⟩ := hm fault h
  cases d with
  | none => simp [Fault.unexpected, Fault.Suits]
  | some c =>
      rw [Fault.unexpected]
      split
      · next hc => exact ⟨by rw [hc], hd (by rw [hc])⟩
      · cases defect <;> simp_all [Fault.Suits, Defect.isExpectation]

/-- **The fault of a step suits its character.** -/
theorem suits_of_step (hb : ∀ g ∈ goals.tail, g.opensList = false)
    (h : (step goals d).next = .error fault) : fault.Suits (opensList goals) d := by
  cases hg : opensList goals with
  | false =>
      refine (refuses_step fun g hm => ?_).suits h fun _ => rfl
      cases goals with
      | nil => cases hm
      | cons goal rest =>
          rcases List.mem_cons.1 hm with rfl | hm
          · exact hg
          · exact hb g hm
  | true =>
      cases goals with
      | nil => cases hg
      | cons goal rest =>
          cases goal with
          | firstFormal =>
              rw [step] at h
              split at h
              · next hc =>
                  obtain rfl := Except.error.inj h
                  simp [Fault.Suits, hc]
              · next hc => exact refuses_readFormal.suits h fun hc' => absurd hc' hc
          | firstArgument =>
              rw [step] at h
              split at h
              · next hc =>
                  obtain rfl := Except.error.inj h
                  simp [Fault.Suits, hc]
              · next hc => exact refuses_readArgument.suits h fun hc' => absurd hc' hc
          | _ => cases hg

/-! ### The error of a walk -/

/-- An offset is the end of a text if nothing stands behind it. -/
theorem eq_utf8ByteSize_iff {n : Nat} {before after : String} (htext : text = before ++ after)
    (hn : before.utf8ByteSize = n) : n = text.utf8ByteSize ↔ after.toList.head? = none := by
  rw [htext, String.utf8ByteSize_append, hn, Nat.left_eq_add, String.utf8ByteSize_eq_zero_iff,
    List.head?_eq_none_iff, String.toList_eq_nil_iff]

theorem lt_utf8ByteSize_of_head? {n : Nat} {before after : String} (htext : text = before ++ after)
    (hn : before.utf8ByteSize = n) (hc : after.toList.head? = some c) :
    n < text.utf8ByteSize := by
  have hne : n ≠ text.utf8ByteSize := by
    rw [Ne, eq_utf8ByteSize_iff htext hn, hc]
    exact Option.some_ne_none c
  rw [htext, String.utf8ByteSize_append, hn] at hne ⊢
  omega

/-- **The error of a walk is classified by its character.**  It stands between two parts of the
text, and its offset is the size of the first.  It is one of balance if the second part begins with
a `>` and the first does not end with a `<`.  Otherwise the signature is invalid: it breaks off if
the second part is empty, and a list is empty if the `>` that closes it stands behind its `<`.  The
error carries the whole text. -/
theorem walk_error_classified (h : (walk kind text).error = some error) : ∃ n before after,
    error.offset? = some n ∧ text = before ++ after ∧ before.utf8ByteSize = n ∧
      (error = .unbalanced text (some n) ↔ n < text.utf8ByteSize ∧
        after.toList.head? = some '>' ∧ before.toList.getLast? ≠ some '<') ∧
      (error ≠ .unbalanced text (some n) → ∃ defect, error = .invalidSignature text n defect ∧
        (defect.message = "unexpected end of signature" ↔ n = text.utf8ByteSize) ∧
        ((defect = .emptyFormals ∨ defect = .emptyArguments) ↔
          after.toList.head? = some '>' ∧ before.toList.getLast? = some '<')) := by
  obtain ⟨⟨n, fault⟩, hf, rfl⟩ := Option.map_eq_some_iff.1 h
  obtain ⟨before, after, es, left, fs, hs, hn, hr, hstep⟩ := exists_reads_of_fault hf
  rw [Nat.zero_add] at hn
  have htext : text = String.ofList before ++ String.ofList after := by
    rw [← String.ofList_append, ← hs, String.ofList_toList]
  have hbehind := hr.behind (behind_goals kind)
  rw [Option.or_none] at hbehind
  have hsuits := suits_of_step hbehind.below (congrArg Move.next hstep)
  have hend := eq_utf8ByteSize_iff htext hn.symm
  refine ⟨n, .ofList before, .ofList after, fault.offset?_toError text n, htext, hn.symm, ?_⟩
  rw [String.toList_ofList, String.toList_ofList]
  rw [String.toList_ofList] at hend
  cases fault with
  | unbalanced =>
      obtain ⟨hc, ho⟩ := hsuits
      have hlt := lt_utf8ByteSize_of_head? htext hn.symm (by rw [String.toList_ofList, hc])
      have hlast : before.getLast? ≠ some '<' := by
        rw [Ne, ← hbehind.opensList_iff, ho]
        exact Bool.false_ne_true
      exact ⟨iff_of_true rfl ⟨hlt, hc, hlast⟩, fun hne => absurd rfl hne⟩
  | defect d =>
      obtain ⟨hbalanced, hnone, hempty⟩ := hsuits
      rw [hbehind.opensList_iff] at hempty
      refine ⟨iff_of_false (fun he => by cases he) ?_, fun _ => ⟨d, rfl, ?_, hempty⟩⟩
      · rintro ⟨-, hc, hlast⟩
        exact hbalanced ⟨hc, Bool.eq_false_iff.2 fun ho => hlast (hbehind.opensList_iff.1 ho)⟩
      · rw [Defect.message_eq_endOfText_iff, hnone, hend]

/-- A list of type arguments is empty, behind a name with a character of two bytes. -/
theorem walk_error_classified_empty :
    (walk .fieldKind "Lä<>;").error = some (.invalidSignature "Lä<>;" 4 .emptyArguments) ∧
      ∃ before after, "Lä<>;" = before ++ after ∧ before.utf8ByteSize = 4 ∧
        after.toList.head? = some '>' ∧ before.toList.getLast? = some '<' := by
  have h : (walk .fieldKind "Lä<>;").error =
      some (.invalidSignature "Lä<>;" 4 .emptyArguments) := by
    decide
  obtain ⟨n, before, after, hn, htext, hsize, -, hinvalid⟩ := walk_error_classified h
  obtain rfl := Option.some.inj hn
  obtain ⟨defect, he, -, hempty⟩ := hinvalid (by simp)
  obtain ⟨-, -, rfl⟩ := FormatError.invalidSignature.inj he
  exact ⟨h, before, after, htext, hsize, hempty.1 (Or.inr rfl)⟩

end RecordRepair.Signature
