import RecordRepair.Proofs.Signature.Reading

/-! # What one character does

`step` is written as a program.  For a proof about all readings it is more convenient to know the
effect of a character on the goal that takes it, whatever goals stand below.

* `Acts goal c es pushed`: the goal takes the character `c`, which completes the events `es`, and
  the goals `pushed` replace it.
* `Skips goal c es`: the goal is left out ahead of `c`, which completes the events `es`.
* `Steps goals c es left`: some goals are left out, and the next one takes the character.
* `Ends goals es`: all goals are left out at the end of the text.
* `steps_of_step` and `ends_of_step` say that this is all that `step` does.

A property of the single goals of a stack is kept by every step if `Acts` keeps it (`Keeps`). -/

namespace RecordRepair.Signature

variable {goals rest left pushed : List Goal} {events es : List Event} {goal : Goal} {c : Char}

/-! ### The effect on one goal -/

/-- A character begins a reference type. -/
inductive OpensReference : Char → List Event → List Goal → Prop
  | ofClass : OpensReference 'L' [] [.className ""]
  | typeVariable : OpensReference 'T' [] [.variableName ""]
  | array : OpensReference '[' [.arrayType] [.javaType]

/-- A character is a primitive type or begins a reference type. -/
inductive OpensType : Char → List Event → List Goal → Prop
  | base (type : BaseType) : OpensType type.letter [.baseType type] []
  | reference {c : Char} {es : List Event} {pushed : List Goal} :
      OpensReference c es pushed → OpensType c es pushed

/-- A character ends a class type or begins an inner class. -/
inductive EndsClass : Char → List Event → List Goal → Prop
  | close : EndsClass ';' [.close] []
  | inner : EndsClass '.' [] [.innerName ""]

/-- A character stands behind the name of a class. -/
inductive FollowsName : Char → List Event → List Goal → Prop
  | arguments : FollowsName '<' [] [.firstArgument, .classEnd]
  | ends {c : Char} {es : List Event} {pushed : List Goal} :
      EndsClass c es pushed → FollowsName c es pushed

/-- A character begins a type argument. -/
inductive OpensArgument : Char → List Event → List Goal → Prop
  | unbounded : OpensArgument '*' [.unboundedArgument] [.moreArguments]
  | wildcard {w : Wildcard} {c : Char} : w.marker? = some c →
      OpensArgument c [.typeArgument w] [.referenceType, .argumentEnd, .moreArguments]
  | exact {c : Char} {es : List Event} {pushed : List Goal} : OpensReference c es pushed →
      OpensArgument c (.typeArgument .exact :: es) (pushed ++ [.argumentEnd, .moreArguments])

/-- A goal takes a character, which completes some events, and some goals replace it. -/
inductive Acts : Goal → Char → List Event → List Goal → Prop
  | openFormals : Acts .formals '<' [] [.firstFormal]
  | firstFormal {c : Char} : endsName c = false →
      Acts .firstFormal c [] [.formalName (String.singleton c)]
  | moreFormals {c : Char} : endsName c = false →
      Acts .moreFormals c [] [.formalName (String.singleton c)]
  | closeFormals : Acts .moreFormals '>' [] []
  | formalName {name : String} {c : Char} : endsName c = false →
      Acts (.formalName name) c [] [.formalName (name.push c)]
  | formal (name : String) : Acts (.formalName name) ':' [.formalParameter name]
      [.classBound, .interfaceBounds, .moreFormals]
  | classBound {c : Char} {es : List Event} {pushed : List Goal} : OpensReference c es pushed →
      Acts .classBound c (.classBound :: es) pushed
  | interfaceBound : Acts .interfaceBounds ':' [.interfaceBound] [.referenceType, .interfaceBounds]
  | superclass : Acts .superclass 'L' [.superclass] [.className ""]
  | interface : Acts .interfaces 'L' [.interface] [.className "", .interfaces]
  | openParameters : Acts .parameters '(' [] [.moreParameters]
  | closeParameters : Acts .moreParameters ')' [] []
  | parameter {c : Char} {es : List Event} {pushed : List Goal} : OpensType c es pushed →
      Acts .moreParameters c (.parameterType :: es) (pushed ++ [.moreParameters])
  | void : Acts .returnType 'V' [.returnType, .voidType] []
  | result {c : Char} {es : List Event} {pushed : List Goal} : OpensType c es pushed →
      Acts .returnType c (.returnType :: es) pushed
  | exception : Acts .exceptions '^' [] [.exceptionType]
  | exceptionType {c : Char} {es : List Event} {pushed : List Goal} : OpensReference c es pushed →
      c ≠ '[' → Acts .exceptionType c (.exceptionType :: es) (pushed ++ [.exceptions])
  | javaType {c : Char} {es : List Event} {pushed : List Goal} : OpensType c es pushed →
      Acts .javaType c es pushed
  | referenceType {c : Char} {es : List Event} {pushed : List Goal} : OpensReference c es pushed →
      Acts .referenceType c es pushed
  | variableName {name : String} {c : Char} : endsName c = false →
      Acts (.variableName name) c [] [.variableName (name.push c)]
  | variableEnd {name : String} : name ≠ "" →
      Acts (.variableName name) ';' [.typeVariable name] []
  | className {name : String} {c : Char} : endsClassName c = false →
      Acts (.className name) c [] [.className (name.push c)]
  | classEnd {name : String} {c : Char} {es : List Event} {pushed : List Goal} : name ≠ "" →
      FollowsName c es pushed → Acts (.className name) c (.classType name :: es) pushed
  | innerName {name : String} {c : Char} : endsName c = false →
      Acts (.innerName name) c [] [.innerName (name.push c)]
  | innerEnd {name : String} {c : Char} {es : List Event} {pushed : List Goal} : name ≠ "" →
      FollowsName c es pushed →
      Acts (.innerName name) c (.close :: .innerClassType name :: es) pushed
  | afterArguments {c : Char} {es : List Event} {pushed : List Goal} : EndsClass c es pushed →
      Acts .classEnd c es pushed
  | firstArgument {c : Char} {es : List Event} {pushed : List Goal} : OpensArgument c es pushed →
      Acts .firstArgument c es pushed
  | moreArguments {c : Char} {es : List Event} {pushed : List Goal} : OpensArgument c es pushed →
      Acts .moreArguments c es pushed
  | closeArguments : Acts .moreArguments '>' [] []

/-- A goal is left out ahead of a character, which completes some events. -/
inductive Skips : Goal → Char → List Event → Prop
  | formals {c : Char} : c ≠ '<' → Skips .formals c []
  | classBound {c : Char} : c ≠ 'L' → c ≠ 'T' → c ≠ '[' → Skips .classBound c []
  | interfaceBounds {c : Char} : c ≠ ':' → Skips .interfaceBounds c []
  | exceptions {c : Char} : c ≠ '^' → Skips .exceptions c []
  | argumentEnd {c : Char} : Skips .argumentEnd c [.close]

/-- Some goals are left out ahead of a character, and the next one takes it. -/
inductive Steps : List Goal → Char → List Event → List Goal → Prop
  | act {goal : Goal} {rest : List Goal} {c : Char} {es : List Event} {pushed : List Goal} :
      Acts goal c es pushed → Steps (goal :: rest) c es (pushed ++ rest)
  | skip {goal : Goal} {rest left : List Goal} {c : Char} {es fs : List Event} :
      Skips goal c es → Steps rest c fs left → Steps (goal :: rest) c (es ++ fs) left

/-- Whether a goal may be left out at the end of a text without completing an event. -/
def Goal.isOptional : Goal → Bool
  | formals => true
  | classBound => true
  | interfaceBounds => true
  | interfaces => true
  | exceptions => true
  | _ => false

/-- All goals are left out at the end of a text. -/
inductive Ends : List Goal → List Event → Prop
  | nil : Ends [] []
  | skip {goal : Goal} {goals : List Goal} {es : List Event} : goal.isOptional = true →
      Ends goals es → Ends (goal :: goals) es
  | argumentEnd {goals : List Goal} {es : List Event} : Ends goals es →
      Ends (.argumentEnd :: goals) (.close :: es)

/-! ### The steps are no others -/

theorem opensReference_of_read (h : readReference rest (some c) = ⟨events, .ok left⟩) :
    ∃ pushed, OpensReference c events pushed ∧ left = pushed ++ rest := by
  rw [readReference_eq_ok_iff] at h
  rcases h with ⟨hc, rfl, rfl⟩ | ⟨hc, rfl, rfl⟩ | ⟨hc, rfl, rfl⟩
  all_goals obtain rfl := Option.some.inj hc
  · exact ⟨_, .ofClass, rfl⟩
  · exact ⟨_, .typeVariable, rfl⟩
  · exact ⟨_, .array, rfl⟩

theorem opensType_of_read (h : readJava rest (some c) = ⟨events, .ok left⟩) :
    ∃ pushed, OpensType c events pushed ∧ left = pushed ++ rest := by
  rw [readJava_eq_ok_iff] at h
  rcases h with ⟨b, hc, rfl, rfl⟩ | hr
  · obtain rfl := Option.some.inj hc
    exact ⟨_, .base b, rfl⟩
  · obtain ⟨pushed, hp, rfl⟩ := opensReference_of_read hr
    exact ⟨pushed, .reference hp, rfl⟩

theorem endsClass_of_read (h : readClassEnd rest (some c) = ⟨events, .ok left⟩) :
    ∃ pushed, EndsClass c events pushed ∧ left = pushed ++ rest := by
  rw [readClassEnd_eq_ok_iff] at h
  rcases h with ⟨hc, rfl, rfl⟩ | ⟨hc, rfl, rfl⟩
  all_goals obtain rfl := Option.some.inj hc
  · exact ⟨_, .close, rfl⟩
  · exact ⟨_, .inner, rfl⟩

theorem followsName_of_read (h : readClassTail rest (some c) = ⟨events, .ok left⟩) :
    ∃ pushed, FollowsName c events pushed ∧ left = pushed ++ rest := by
  rw [readClassTail_eq_ok_iff] at h
  rcases h with ⟨hc, rfl, rfl⟩ | hr
  · obtain rfl := Option.some.inj hc
    exact ⟨_, .arguments, rfl⟩
  · obtain ⟨pushed, hp, rfl⟩ := endsClass_of_read hr
    exact ⟨pushed, .ends hp, rfl⟩

theorem opensArgument_of_read (h : readArgument rest (some c) = ⟨events, .ok left⟩) :
    ∃ pushed, OpensArgument c events pushed ∧ left = pushed ++ rest := by
  rcases readArgument_cases h with ⟨hc, rfl, rfl⟩ | ⟨w, hw, -, rfl, rfl⟩ | ⟨es, hr, rfl⟩
  · obtain rfl := Option.some.inj hc
    exact ⟨_, .unbounded, rfl⟩
  · exact ⟨_, .wildcard hw, rfl⟩
  · obtain ⟨pushed, hp, rfl⟩ := opensReference_of_read hr
    exact ⟨_, .exact hp, by simp⟩

/-- A goal waits for a certain character, or else does something that is not told. -/
theorem cases_of_ite_leave {next : List Goal} {d : Char} {m : Move}
    (h : (if some c = some d then Move.leave next else m) = ⟨events, .ok left⟩) :
    (c = d ∧ events = [] ∧ left = next) ∨ (c ≠ d ∧ m = ⟨events, .ok left⟩) := by
  split at h
  · next hc => exact Or.inl ⟨Option.some.inj hc, Move.leave_eq_ok_iff.1 h⟩
  · next hc => exact Or.inr ⟨fun he => hc (congrArg some he), h⟩

/-- A goal goes on with a name, or else does something that is not told. -/
theorem cases_of_continues? {ends : Char → Bool} {next : Char → List Goal} {m : Move}
    (h : (match continues? ends (some c) with
      | some d => Move.leave (next d)
      | none => m) = ⟨events, .ok left⟩) :
    (ends c = false ∧ events = [] ∧ left = next c) ∨ m = ⟨events, .ok left⟩ := by
  split at h
  · next d hd =>
      obtain ⟨hd, he⟩ := continues?_eq_some_iff.1 hd
      obtain rfl := Option.some.inj hd
      exact Or.inl ⟨he, Move.leave_eq_ok_iff.1 h⟩
  · exact Or.inr h

/-- **What a step does.** -/
theorem steps_of_step (h : step goals (some c) = ⟨events, .ok left⟩) :
    Steps goals c events left := by
  induction goals generalizing events with
  | nil => exact absurd h Move.refuse_ne_ok
  | cons goal rest ih =>
      cases goal with
      | formals =>
          rw [step] at h
          rcases cases_of_ite_leave h with ⟨rfl, rfl, rfl⟩ | ⟨hc, hm⟩
          · exact .act .openFormals
          · exact .skip (.formals hc) (ih hm)
      | firstFormal =>
          rw [step] at h
          split at h
          · exact absurd h Move.stop_ne_ok
          · obtain ⟨hc, rfl, rfl⟩ := readFormal_eq_ok_iff.1 h
            exact .act (.firstFormal hc)
      | moreFormals =>
          rw [step] at h
          rcases cases_of_ite_leave h with ⟨rfl, rfl, rfl⟩ | ⟨-, hm⟩
          · exact .act .closeFormals
          · obtain ⟨hc, rfl, rfl⟩ := readFormal_eq_ok_iff.1 hm
            exact .act (.moreFormals hc)
      | formalName name =>
          rw [step] at h
          rcases cases_of_continues? h with ⟨he, rfl, rfl⟩ | hm
          · exact .act (.formalName he)
          · split at hm
            · next hc =>
                obtain rfl := Option.some.inj hc
                obtain ⟨es, hl, rfl⟩ := Move.emit_eq_iff.1 hm
                obtain ⟨rfl, rfl⟩ := Move.leave_eq_ok_iff.1 hl
                exact .act (.formal name)
            · exact absurd hm Move.refuse_ne_ok
      | classBound =>
          rw [step] at h
          split at h
          · obtain ⟨es, hm, rfl⟩ := Move.emit_eq_iff.1 h
            obtain ⟨pushed, hp, rfl⟩ := opensReference_of_read hm
            exact .act (.classBound hp)
          · next hc =>
              simp only [Option.some.injEq, not_or] at hc
              exact .skip (.classBound hc.1 hc.2.1 hc.2.2) (ih h)
      | interfaceBounds =>
          rw [step] at h
          split at h
          · next hc =>
              obtain rfl := Option.some.inj hc
              obtain ⟨es, hm, rfl⟩ := Move.emit_eq_iff.1 h
              obtain ⟨rfl, rfl⟩ := Move.leave_eq_ok_iff.1 hm
              exact .act .interfaceBound
          · next hc => exact .skip (.interfaceBounds fun he => hc (congrArg some he)) (ih h)
      | superclass =>
          rw [step] at h
          obtain ⟨es, hm, rfl⟩ := Move.emit_eq_iff.1 h
          obtain ⟨hc, rfl, rfl⟩ := readClass_eq_ok_iff.1 hm
          obtain rfl := Option.some.inj hc
          exact .act .superclass
      | interfaces =>
          rw [step, if_neg (Option.some_ne_none c)] at h
          obtain ⟨es, hm, rfl⟩ := Move.emit_eq_iff.1 h
          obtain ⟨hc, rfl, rfl⟩ := readClass_eq_ok_iff.1 hm
          obtain rfl := Option.some.inj hc
          exact .act .interface
      | parameters =>
          rw [step] at h
          rcases cases_of_ite_leave h with ⟨rfl, rfl, rfl⟩ | ⟨-, hm⟩
          · exact .act .openParameters
          · exact absurd hm Move.refuse_ne_ok
      | moreParameters =>
          rw [step] at h
          rcases cases_of_ite_leave h with ⟨rfl, rfl, rfl⟩ | ⟨-, hm⟩
          · exact .act .closeParameters
          · obtain ⟨es, ht, rfl⟩ := Move.emit_eq_iff.1 hm
            obtain ⟨pushed, hp, rfl⟩ := opensType_of_read ht
            rw [List.append_cons]
            exact .act (.parameter hp)
      | returnType =>
          rw [step] at h
          obtain ⟨es, hm, rfl⟩ := Move.emit_eq_iff.1 h
          split at hm
          · next hc =>
              obtain rfl := Option.some.inj hc
              obtain ⟨fs, hl, rfl⟩ := Move.emit_eq_iff.1 hm
              obtain ⟨rfl, rfl⟩ := Move.leave_eq_ok_iff.1 hl
              exact .act .void
          · obtain ⟨pushed, hp, rfl⟩ := opensType_of_read hm
            exact .act (.result hp)
      | exceptions =>
          rw [step] at h
          rcases cases_of_ite_leave h with ⟨rfl, rfl, rfl⟩ | ⟨hc, hm⟩
          · exact .act .exception
          · exact .skip (.exceptions hc) (ih hm)
      | exceptionType =>
          rw [step] at h
          split at h
          · next hc =>
              have hne : c ≠ '[' := by
                rintro rfl
                rcases hc with hc | hc <;> exact absurd (Option.some.inj hc) (by decide)
              obtain ⟨es, hm, rfl⟩ := Move.emit_eq_iff.1 h
              obtain ⟨pushed, hp, rfl⟩ := opensReference_of_read hm
              rw [List.append_cons]
              exact .act (.exceptionType hp hne)
          · exact absurd h Move.refuse_ne_ok
      | javaType =>
          obtain ⟨pushed, hp, rfl⟩ := opensType_of_read h
          exact .act (.javaType hp)
      | referenceType =>
          obtain ⟨pushed, hp, rfl⟩ := opensReference_of_read h
          exact .act (.referenceType hp)
      | variableName name =>
          rw [step] at h
          rcases cases_of_continues? h with ⟨he, rfl, rfl⟩ | hm
          · exact .act (.variableName he)
          · split at hm
            · exact absurd hm Move.refuse_ne_ok
            split at hm
            · next hn hc =>
                obtain rfl := Option.some.inj hc
                obtain ⟨es, hl, rfl⟩ := Move.emit_eq_iff.1 hm
                obtain ⟨rfl, rfl⟩ := Move.leave_eq_ok_iff.1 hl
                exact .act (.variableEnd hn)
            · exact absurd hm Move.refuse_ne_ok
      | className name =>
          rw [step] at h
          rcases cases_of_continues? h with ⟨he, rfl, rfl⟩ | hm
          · exact .act (.className he)
          · split at hm
            · exact absurd hm Move.refuse_ne_ok
            · next hn =>
                obtain ⟨es, ht, rfl⟩ := Move.emit_eq_iff.1 hm
                obtain ⟨pushed, hp, rfl⟩ := followsName_of_read ht
                exact .act (.classEnd hn hp)
      | innerName name =>
          rw [step] at h
          rcases cases_of_continues? h with ⟨he, rfl, rfl⟩ | hm
          · exact .act (.innerName he)
          · split at hm
            · exact absurd hm Move.refuse_ne_ok
            · next hn =>
                obtain ⟨es, hi, rfl⟩ := Move.emit_eq_iff.1 hm
                obtain ⟨fs, ht, rfl⟩ := Move.emit_eq_iff.1 hi
                obtain ⟨pushed, hp, rfl⟩ := followsName_of_read ht
                exact .act (.innerEnd hn hp)
      | classEnd =>
          obtain ⟨pushed, hp, rfl⟩ := endsClass_of_read h
          exact .act (.afterArguments hp)
      | firstArgument =>
          rw [step] at h
          split at h
          · exact absurd h Move.stop_ne_ok
          · obtain ⟨pushed, hp, rfl⟩ := opensArgument_of_read h
            exact .act (.firstArgument hp)
      | moreArguments =>
          rw [step] at h
          rcases cases_of_ite_leave h with ⟨rfl, rfl, rfl⟩ | ⟨-, hm⟩
          · exact .act .closeArguments
          · obtain ⟨pushed, hp, rfl⟩ := opensArgument_of_read hm
            exact .act (.moreArguments hp)
      | argumentEnd =>
          rw [step] at h
          obtain ⟨es, hm, rfl⟩ := Move.emit_eq_iff.1 h
          exact .skip .argumentEnd (ih hm)

/-- **What the end of a text does.** -/
theorem ends_of_step (h : step goals none = ⟨events, .ok left⟩) : Ends goals events := by
  induction goals generalizing events with
  | nil =>
      obtain ⟨rfl, -⟩ := Move.leave_eq_ok_iff.1 h
      exact .nil
  | cons goal rest ih =>
      have hs := congrArg Move.next h
      cases goal with
      | formals => exact .skip rfl (ih h)
      | classBound => exact .skip rfl (ih h)
      | interfaceBounds => exact .skip rfl (ih h)
      | interfaces => exact .skip rfl (ih h)
      | exceptions => exact .skip rfl (ih h)
      | argumentEnd =>
          rw [step] at h
          obtain ⟨es, hm, rfl⟩ := Move.emit_eq_iff.1 h
          exact .argumentEnd (ih hm)
      | _ =>
          -- these goals wait for a character
          simp [step, readClass, readReference, readJava, readFormal, readArgument, continues?,
            readClassTail, readClassEnd] at hs
          try (split at hs <;> simp at hs)

/-! ### Properties of what is left and completed -/

variable {P : Goal → Prop} {Q : Event → Prop} {e : Event}

/-- The goals that are left have a property, and so have the events that are completed. -/
def Kept (P : Goal → Prop) (Q : Event → Prop) (es : List Event) (left : List Goal) : Prop :=
  (∀ g ∈ left, P g) ∧ ∀ e ∈ es, Q e

theorem Kept.nil (hg : ∀ g ∈ left, P g) : Kept P Q [] left := ⟨hg, List.forall_mem_nil _⟩

theorem Kept.event (h : Kept P Q es left) (he : Q e) : Kept P Q (e :: es) left :=
  ⟨h.1, List.forall_mem_cons.2 ⟨he, h.2⟩⟩

theorem Kept.before (h : Kept P Q es pushed) (hg : ∀ g ∈ rest, P g) :
    Kept P Q es (pushed ++ rest) :=
  ⟨List.forall_mem_append.2 ⟨h.1, hg⟩, h.2⟩

theorem Kept.imp {P' : Goal → Prop} {Q' : Event → Prop} (h : Kept P Q es left)
    (hP : ∀ g, P g → P' g) (hQ : ∀ e, Q e → Q' e) : Kept P' Q' es left :=
  ⟨fun g hg => hP g (h.1 g hg), fun e he => hQ e (h.2 e he)⟩

/-- A part of a type of which no name has been read. -/
def Goal.isFresh : Goal → Bool
  | javaType => true
  | referenceType => true
  | variableName name => name == ""
  | className name => name == ""
  | innerName name => name == ""
  | classEnd => true
  | firstArgument => true
  | moreArguments => true
  | argumentEnd => true
  | _ => false

/-- An event within a type that gives no name. -/
def Event.isMark : Event → Bool
  | baseType _ => true
  | arrayType => true
  | typeArgument _ => true
  | unboundedArgument => true
  | close => true
  | _ => false

/-- Nothing but fresh goals is left, and nothing but marks is completed. -/
abbrev IsFresh : List Event → List Goal → Prop := Kept (·.isFresh = true) (·.isMark = true)

theorem OpensReference.isFresh (h : OpensReference c es pushed) : IsFresh es pushed := by
  cases h <;> simp [IsFresh, Kept, Goal.isFresh, Event.isMark]

theorem OpensType.isFresh (h : OpensType c es pushed) : IsFresh es pushed := by
  cases h with
  | base b => simp [IsFresh, Kept, Event.isMark]
  | reference hr => exact hr.isFresh

theorem FollowsName.isFresh (h : FollowsName c es pushed) : IsFresh es pushed := by
  cases h with
  | arguments => simp [IsFresh, Kept, Goal.isFresh]
  | ends he => cases he <;> simp [IsFresh, Kept, Goal.isFresh, Event.isMark]

theorem OpensArgument.isFresh (h : OpensArgument c es pushed) : IsFresh es pushed := by
  cases h with
  | unbounded => simp [IsFresh, Kept, Goal.isFresh, Event.isMark]
  | wildcard _ => simp [IsFresh, Kept, Goal.isFresh, Event.isMark]
  | exact hr => exact (hr.isFresh.before (by decide)).event rfl

theorem Skips.eq_close (h : Skips goal c es) (he : e ∈ es) : e = .close := by
  cases h with
  | argumentEnd => exact List.mem_singleton.1 he
  | _ => cases he

theorem Ends.eq_close (h : Ends goals es) (he : e ∈ es) : e = .close := by
  induction h with
  | nil => cases he
  | skip _ _ ih => exact ih he
  | argumentEnd _ ih =>
      rcases List.mem_cons.1 he with rfl | he
      · rfl
      · exact ih he

/-- A property of goals is kept by every step, and the events have a property then. -/
structure Keeps (P : Goal → Prop) (Q : Event → Prop) : Prop where
  acts : ∀ {goal : Goal} {c : Char} {es : List Event} {pushed : List Goal},
    Acts goal c es pushed → P goal → Kept P Q es pushed
  close : Q .close

theorem Steps.kept (h : Steps goals c es left) (hk : Keeps P Q) (hg : ∀ g ∈ goals, P g) :
    Kept P Q es left := by
  induction h with
  | act ha =>
      obtain ⟨hgoal, hrest⟩ := List.forall_mem_cons.1 hg
      exact (hk.acts ha hgoal).before hrest
  | skip hs _ ih =>
      obtain ⟨hl, he⟩ := ih (List.forall_mem_cons.1 hg).2
      refine ⟨hl, List.forall_mem_append.2 ⟨fun e hm => ?_, he⟩⟩
      rw [hs.eq_close hm]
      exact hk.close

end RecordRepair.Signature
