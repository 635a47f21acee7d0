import RecordRepair.Proofs.Signature.Steps

/-! # Faults come as early as they can

A reading stops at the first character that no accepted text has there.  What has been read by then
can be completed, since each goal can be met by a few characters whatever the others are.

* `Goal.completion`: characters that meet a goal.  `Goal.exists_completes` puts them ahead of what
  meets the goals below.
* `InterfacesLast`: no goal stands below that for interfaces, which is met by the end of the text
  alone.  Readings keep this.
* `viable_of_reads`: what can be read at all begins some accepted text.
* `exists_reads_of_fault`: a fault stands behind a reading of all that comes before it.
* `walk_error_earliest`: the error of a walk stands at the first character that is too much, or at
  the end of a text that breaks off. -/

namespace RecordRepair

/-- The place of an error, if it has one. -/
def FormatError.offset? : FormatError → Option Nat
  | invalidDescriptor _ => none
  | invalidSignature _ offset _ => some offset
  | unbalanced _ offset => offset

namespace Signature

variable {goals rest left pushed : List Goal} {goal : Goal} {es fs : List Event} {c : Char}
  {s : List Char} {kind : Kind} {text : String} {error : FormatError}

/-! ### Goals for interfaces -/

/-- No goal stands below that for interfaces. -/
def InterfacesLast (goals : List Goal) : Prop := goals.Pairwise fun goal _ => goal ≠ .interfaces

theorem IsFresh.ne_interfaces (h : IsFresh es pushed) :
    Kept (· ≠ .interfaces) (fun _ => True) es pushed := by
  refine h.imp (fun g hg => ?_) fun _ _ => trivial
  rintro rfl
  cases hg

theorem keeps_ne_interfaces : Keeps (· ≠ .interfaces) (fun _ => True) where
  close := trivial
  acts := by
    intro goal c es pushed h hg
    cases h with
    | classBound h => exact h.isFresh.ne_interfaces.event trivial
    | parameter h => exact (h.isFresh.ne_interfaces.before (by simp)).event trivial
    | result h => exact h.isFresh.ne_interfaces.event trivial
    | exceptionType h => exact (h.isFresh.ne_interfaces.before (by simp)).event trivial
    | javaType h => exact h.isFresh.ne_interfaces
    | referenceType h => exact h.isFresh.ne_interfaces
    | classEnd _ h => exact h.isFresh.ne_interfaces.event trivial
    | innerEnd _ h => exact (h.isFresh.ne_interfaces.event trivial).event trivial
    | afterArguments h => exact (FollowsName.ends h).isFresh.ne_interfaces
    | firstArgument h => exact h.isFresh.ne_interfaces
    | moreArguments h => exact h.isFresh.ne_interfaces
    | _ => simp_all [Kept]

theorem interfacesLast_of_ne (h : ∀ g ∈ goals, g ≠ .interfaces) : InterfacesLast goals :=
  List.pairwise_of_forall_mem_list fun a ha _ _ => h a ha

theorem Steps.interfacesLast (h : Steps goals c es left) (hi : InterfacesLast goals) :
    InterfacesLast left := by
  induction h with
  | @act goal rest c es pushed ha =>
      obtain ⟨hb, hrest⟩ := List.pairwise_cons.1 hi
      by_cases hg : goal = .interfaces
      · -- nothing stands below
        subst hg
        cases ha
        cases rest with
        | nil => exact List.pairwise_pair.2 (by decide)
        | cons below _ => exact absurd rfl (hb below List.mem_cons_self)
      · obtain ⟨hp, -⟩ := keeps_ne_interfaces.acts ha hg
        exact List.pairwise_append.2 ⟨interfacesLast_of_ne hp, hrest, fun a hm _ _ => hp a hm⟩
  | skip _ _ ih => exact ih (List.pairwise_cons.1 hi).2

theorem Reads.interfacesLast (h : Reads goals s es left) (hi : InterfacesLast goals) :
    InterfacesLast left := by
  induction h with
  | refl _ => exact hi
  | step hs _ ih => exact ih ((steps_of_step hs).interfacesLast hi)

theorem interfacesLast_goals (kind : Kind) : InterfacesLast kind.goals := by
  cases kind <;> simp [InterfacesLast, Kind.goals]

/-! ### Completions -/

/-- Characters that meet a goal.  A class bound is not left out, since the goals below may begin
with a type. -/
def Goal.completion : Goal → List Char
  | formals => []
  | firstFormal => ['a', ':', '>']
  | moreFormals => ['>']
  | formalName _ => ['a', ':', '>']
  | classBound => ['T', 'a', ';']
  | interfaceBounds => []
  | superclass => ['L', 'a', ';']
  | interfaces => []
  | parameters => ['(', ')']
  | moreParameters => [')']
  | returnType => ['V']
  | exceptions => []
  | exceptionType => ['T', 'a', ';']
  | javaType => ['I']
  | referenceType => ['T', 'a', ';']
  | variableName _ => ['a', ';']
  | className _ => ['a', ';']
  | innerName _ => ['a', ';']
  | classEnd => [';']
  | firstArgument => ['*', '>']
  | moreArguments => ['>']
  | argumentEnd => []

/-- A character that begins something that may be left out, apart from a class bound. -/
def beginsOptional (c : Char) : Bool := c == '<' || c == ':' || c == '^'

theorem Goal.not_beginsOptional_completion (goals : List Goal) :
    ∀ c ∈ (goals.flatMap Goal.completion).head?, beginsOptional c = false := by
  induction goals with
  | nil => simp
  | cons goal goals ih =>
      intro c hc
      cases goal with
      | formals => exact ih c hc
      | interfaceBounds => exact ih c hc
      | interfaces => exact ih c hc
      | exceptions => exact ih c hc
      | argumentEnd => exact ih c hc
      | _ =>
          obtain rfl := Option.some.inj hc
          rfl

theorem completes_congr {goals' : List Goal} (h : step goals s.head? = step goals' s.head?) :
    Completes goals s es ↔ Completes goals' s es := by
  cases s with
  | nil =>
      rw [List.head?_nil] at h
      rw [completes_nil_iff, completes_nil_iff, h]
  | cons c s =>
      rw [List.head?_cons] at h
      rw [completes_cons_iff, completes_cons_iff, h]

theorem exists_completes_argumentEnd (h : Completes rest s es) :
    ∃ fs, Completes (.argumentEnd :: rest) s fs := by
  cases h with
  | stop hs => exact ⟨_, .stop (by rw [step, hs]; rfl)⟩
  | step hs hc => exact ⟨_, .step (by rw [Signature.step, hs]; rfl) hc⟩

theorem completes_interfaces_nil (h : Completes [] s es) : Completes [.interfaces] s es := by
  cases h with
  | stop hs => exact .stop hs
  | step hs _ => exact absurd (congrArg Move.next hs) (by simp [Signature.step])

theorem exists_reads_variableName (name : String) (rest : List Goal) :
    ∃ es, Reads (.variableName name :: rest) ['a', ';'] es rest := by
  have hend : step (.variableName (name.push 'a') :: rest) (some ';') =
      ⟨[.typeVariable (name.push 'a')], .ok rest⟩ := by
    simp [step, continues?, endsName, endsClassName, Option.filter, Move.emit, Move.leave]
  exact ⟨_, .step rfl (.single hend)⟩

theorem exists_reads_className (name : String) (rest : List Goal) :
    ∃ es, Reads (.className name :: rest) ['a', ';'] es rest := by
  have hend : step (.className (name.push 'a') :: rest) (some ';') =
      ⟨[.classType (name.push 'a'), .close], .ok rest⟩ := by
    simp [step, continues?, endsClassName, Option.filter, readClassTail, readClassEnd, Move.emit,
      Move.leave]
  exact ⟨_, .step rfl (.single hend)⟩

theorem exists_reads_innerName (name : String) (rest : List Goal) :
    ∃ es, Reads (.innerName name :: rest) ['a', ';'] es rest := by
  have hend : step (.innerName (name.push 'a') :: rest) (some ';') =
      ⟨[.close, .innerClassType (name.push 'a'), .close], .ok rest⟩ := by
    simp [step, continues?, endsName, endsClassName, Option.filter, readClassTail, readClassEnd,
      Move.emit, Move.leave]
  exact ⟨_, .step rfl (.single hend)⟩

/-- A completion is read wherever its goal stands, and leaves room for exceptions at most. -/
theorem Goal.exists_reads_completion (goal : Goal) (rest : List Goal) (h : goal.completion ≠ []) :
    ∃ es left, Reads (goal :: rest) goal.completion es left ∧
      (left = rest ∨ left = .exceptions :: rest) := by
  cases goal with
  | formals => exact absurd rfl h
  | interfaceBounds => exact absurd rfl h
  | interfaces => exact absurd rfl h
  | exceptions => exact absurd rfl h
  | argumentEnd => exact absurd rfl h
  | firstFormal => exact ⟨_, _, .step rfl (.step rfl (.single rfl)), Or.inl rfl⟩
  | moreFormals => exact ⟨_, _, .single rfl, Or.inl rfl⟩
  | formalName _ => exact ⟨_, _, .step rfl (.step rfl (.single rfl)), Or.inl rfl⟩
  | classBound =>
      obtain ⟨es, hr⟩ := exists_reads_variableName "" rest
      exact ⟨_, _, .step rfl hr, Or.inl rfl⟩
  | superclass =>
      obtain ⟨es, hr⟩ := exists_reads_className "" rest
      exact ⟨_, _, .step rfl hr, Or.inl rfl⟩
  | parameters => exact ⟨_, _, .step rfl (.single rfl), Or.inl rfl⟩
  | moreParameters => exact ⟨_, _, .single rfl, Or.inl rfl⟩
  | returnType => exact ⟨_, _, .single rfl, Or.inl rfl⟩
  | exceptionType =>
      obtain ⟨es, hr⟩ := exists_reads_variableName "" (.exceptions :: rest)
      exact ⟨_, _, .step rfl hr, Or.inr rfl⟩
  | javaType => exact ⟨_, _, .single rfl, Or.inl rfl⟩
  | referenceType =>
      obtain ⟨es, hr⟩ := exists_reads_variableName "" rest
      exact ⟨_, _, .step rfl hr, Or.inl rfl⟩
  | variableName name =>
      obtain ⟨es, hr⟩ := exists_reads_variableName name rest
      exact ⟨es, rest, hr, Or.inl rfl⟩
  | className name =>
      obtain ⟨es, hr⟩ := exists_reads_className name rest
      exact ⟨es, rest, hr, Or.inl rfl⟩
  | innerName name =>
      obtain ⟨es, hr⟩ := exists_reads_innerName name rest
      exact ⟨es, rest, hr, Or.inl rfl⟩
  | classEnd => exact ⟨_, _, .single rfl, Or.inl rfl⟩
  | firstArgument => exact ⟨_, _, .step rfl (.single rfl), Or.inl rfl⟩
  | moreArguments => exact ⟨_, _, .single rfl, Or.inl rfl⟩

/-- A goal that may be left out is, ahead of a character that does not begin it. -/
theorem completes_of_optional (hg : goal = .formals ∨ goal = .interfaceBounds ∨ goal = .exceptions)
    (hs : ∀ c ∈ s.head?, beginsOptional c = false) (h : Completes rest s es) :
    Completes (goal :: rest) s es := by
  have hne : ∀ d, beginsOptional d = true → s.head? ≠ some d := by
    intro d hd he
    rw [hs d he] at hd
    cases hd
  refine (completes_congr ?_).2 h
  rcases hg with rfl | rfl | rfl
  · rw [step, if_neg (hne '<' rfl)]
  · rw [step, if_neg (hne ':' rfl)]
  · rw [step, if_neg (hne '^' rfl)]

/-- **The completion of a goal can be put ahead of what meets the goals below.** -/
theorem Goal.exists_completes (hi : goal = .interfaces → rest = [])
    (hs : ∀ c ∈ s.head?, beginsOptional c = false) (h : Completes rest s es) :
    ∃ fs, Completes (goal :: rest) (goal.completion ++ s) fs := by
  by_cases hc : goal.completion = []
  · rw [hc, List.nil_append]
    cases goal with
    | formals => exact ⟨es, completes_of_optional (by simp) hs h⟩
    | interfaceBounds => exact ⟨es, completes_of_optional (by simp) hs h⟩
    | exceptions => exact ⟨es, completes_of_optional (by simp) hs h⟩
    | interfaces =>
        obtain rfl := hi rfl
        exact ⟨es, completes_interfaces_nil h⟩
    | argumentEnd => exact exists_completes_argumentEnd h
    | _ => cases hc
  · obtain ⟨fs, left, hr, rfl | rfl⟩ := goal.exists_reads_completion rest hc
    · exact ⟨_, completes_append_iff.2 ⟨_, _, _, hr, h, rfl⟩⟩
    · exact ⟨_, completes_append_iff.2 ⟨_, _, _, hr, completes_of_optional (by simp) hs h, rfl⟩⟩

/-- **Whatever goals are left can be met.** -/
theorem exists_completes_of_interfacesLast (hi : InterfacesLast goals) :
    ∃ es, Completes goals (goals.flatMap Goal.completion) es := by
  induction goals with
  | nil => exact ⟨[], .stop rfl⟩
  | cons goal rest ih =>
      obtain ⟨hb, hrest⟩ := List.pairwise_cons.1 hi
      obtain ⟨es, h⟩ := ih hrest
      refine Goal.exists_completes (fun hg => ?_) (Goal.not_beginsOptional_completion rest) h
      cases rest with
      | nil => rfl
      | cons below _ => exact absurd hg (hb below List.mem_cons_self)

/-! ### Viable texts -/

/-- Some text that begins with this one is accepted. -/
def Viable (kind : Kind) (before : String) : Prop :=
  ∃ rest, (walk kind (before ++ rest)).error = none

theorem viable_of_reads {before : String} (h : Reads kind.goals before.toList es left) :
    Viable kind before := by
  have hlast := h.interfacesLast (interfacesLast_goals kind)
  obtain ⟨fs, hc⟩ := exists_completes_of_interfacesLast hlast
  have ht : (before ++ String.ofList (left.flatMap Goal.completion)).toList =
      before.toList ++ left.flatMap Goal.completion := by
    rw [String.toList_append, String.toList_ofList]
  have hall : Completes kind.goals
      (before ++ String.ofList (left.flatMap Goal.completion)).toList (es ++ fs) := by
    rw [ht]
    exact completes_append_iff.2 ⟨left, es, fs, h, hc, rfl⟩
  exact ⟨_, congrArg Walk.error (walk_eq_iff.2 hall)⟩

/-- A text is viable no further than it can be read. -/
theorem not_viable_of_fault {before : String} {fault : Fault}
    (h : Reads kind.goals before.toList es left) (hs : step left (some c) = ⟨fs, .error fault⟩) :
    ¬ Viable kind (before ++ String.singleton c) := by
  rintro ⟨rest, hw⟩
  have hc := completes_of_walk hw
  have ht : (before ++ String.singleton c ++ rest).toList = before.toList ++ c :: rest.toList := by
    simp
  rw [ht] at hc
  obtain ⟨gs, -, hc⟩ := h.completes_append hc
  obtain ⟨next, _, _, hnext, -, -⟩ := completes_cons_iff.1 hc
  have hmove := congrArg Move.next (hs.symm.trans hnext)
  cases hmove

/-! ### Faults -/

theorem exists_reads_of_fault {offset n : Nat} {fault : Fault}
    (h : (scan goals offset s).fault = some (n, fault)) : ∃ before after es left fs,
      s = before ++ after ∧ n = offset + (String.ofList before).utf8ByteSize ∧
        Reads goals before es left ∧ step left after.head? = ⟨fs, .error fault⟩ := by
  induction s generalizing goals offset with
  | nil =>
      rw [scan] at h
      rcases hm : step goals none with ⟨es, next⟩
      rw [hm] at h
      cases next with
      | error first =>
          cases h
          exact ⟨[], [], [], goals, es, rfl, by simp, .refl goals, hm⟩
      | ok _ => cases h
  | cons c s ih =>
      rw [scan] at h
      rcases hm : step goals (some c) with ⟨es, next⟩
      rw [hm] at h
      cases next with
      | error first =>
          cases h
          exact ⟨[], c :: s, [], goals, es, rfl, by simp, .refl goals, hm⟩
      | ok next =>
          obtain ⟨before, after, fs, left, gs, rfl, rfl, hr, hstep⟩ := ih h
          refine ⟨c :: before, after, es ++ fs, left, gs, rfl, ?_, .step hm hr, hstep⟩
          rw [String.ofList_cons, String.utf8ByteSize_append, String.utf8ByteSize_singleton,
            Nat.add_assoc]

theorem Fault.offset?_toError (text : String) (offset : Nat) (fault : Fault) :
    (fault.toError text offset).offset? = some offset := by
  cases fault <;> rfl

/-- **The error of a walk comes as early as it can.**  It stands between two parts of the text.  The
first part begins some text that is accepted, but with one more character it does not. -/
theorem walk_error_earliest (h : (walk kind text).error = some error) : ∃ n before after,
    error.offset? = some n ∧ n ≤ text.utf8ByteSize ∧
      text = before ++ after ∧ before.utf8ByteSize = n ∧ Viable kind before ∧
        ∀ c rest, after = String.singleton c ++ rest →
          ¬ Viable kind (before ++ String.singleton c) := by
  obtain ⟨⟨n, fault⟩, hf, rfl⟩ := Option.map_eq_some_iff.1 h
  obtain ⟨before, after, es, left, fs, hs, rfl, hr, hstep⟩ := exists_reads_of_fault hf
  have htext : text = String.ofList before ++ String.ofList after := by
    rw [← String.ofList_append, ← hs, String.ofList_toList]
  rw [← String.toList_ofList (l := before)] at hr
  refine ⟨_, .ofList before, .ofList after, fault.offset?_toError text _, ?_, htext, ?_,
    viable_of_reads hr, fun c rest hafter => ?_⟩
  · rw [htext, String.utf8ByteSize_append]
    omega
  · omega
  · have hhead : after.head? = some c := by
      rw [← String.toList_ofList (l := after), hafter]
      simp
    rw [hhead] at hstep
    exact not_viable_of_fault hr hstep

/-- The name of a type variable ends too soon, behind a character of two bytes. -/
theorem walk_error_earliest_variable :
    (walk .fieldKind "TÄ<").error = some (.invalidSignature "TÄ<" 3 .variableEnd) ∧
      ∃ before after, "TÄ<" = before ++ after ∧ before.utf8ByteSize = 3 ∧
        Viable .fieldKind before ∧ ∀ c rest, after = String.singleton c ++ rest →
          ¬ Viable .fieldKind (before ++ String.singleton c) := by
  have h : (walk .fieldKind "TÄ<").error = some (.invalidSignature "TÄ<" 3 .variableEnd) := by
    decide
  obtain ⟨n, before, after, hn, -, htext, hsize, hviable, hmore⟩ := walk_error_earliest h
  obtain rfl := Option.some.inj hn
  exact ⟨h, before, after, htext, hsize, hviable, hmore⟩

end Signature

end RecordRepair
