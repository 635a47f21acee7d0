import RecordRepair.Signature.Walk

/-! # Reading one event at a time

An agenda reads a signature on demand.  It keeps a stack of tasks, and each call takes tasks from
the stack until one of them gives an event, or until the reading stops.

* `Spot` is what is left of a text, with the offset where it stands.
* `Task.perform` does one task: it may take characters, give an event and put further tasks on the
  stack.  A task reads a whole name at once.
* `Agenda.pop` does the task on top of the stack.
* `Agenda.next` answers one call.  It ends because a task that gives no event leaves less to do
  (`Task.leavesLess`, `Agenda.size_lt`). -/

namespace RecordRepair.Signature

/-! ### Spots -/

/-- What is left of a text, with its offset in bytes of UTF-8. -/
structure Spot where
  offset : Nat
  rest : List Char
deriving DecidableEq, Repr

namespace Spot

/-- The next character, if there is one. -/
def peek (spot : Spot) : Option Char := spot.rest.head?

/-- The spot behind the next character. -/
def tail (spot : Spot) : Spot :=
  match spot.rest with
  | [] => spot
  | c :: rest => ⟨spot.offset + c.utf8Size, rest⟩

/-- The characters up to the next one that ends a name. -/
def name (spot : Spot) (ends : Char → Bool) : List Char := spot.rest.takeWhile fun c => !ends c

/-- The spot behind a name. -/
def afterName (spot : Spot) (ends : Char → Bool) : Spot :=
  ⟨spot.offset + (String.ofList (spot.name ends)).utf8ByteSize,
    spot.rest.dropWhile fun c => !ends c⟩

/-- The fault that something else has to stand at a spot. -/
def refuse {α : Type} (spot : Spot) (expected : Defect) : Except (Nat × Fault) α :=
  .error (spot.offset, .unexpected expected spot.peek)

/-- Takes a character that has to stand at a spot. -/
def expect (spot : Spot) (c : Char) (expected : Defect) : Except (Nat × Fault) Spot :=
  if spot.peek = some c then .ok spot.tail else spot.refuse expected

/-- Reads a name, which must not be empty. -/
def readName (spot : Spot) (ends : Char → Bool) (expected : Defect) :
    Except (Nat × Fault) (String × Spot) :=
  if spot.name ends = [] then spot.refuse expected
  else .ok (String.ofList (spot.name ends), spot.afterName ends)

end Spot

/-! ### Tasks -/

/-- A piece of work. -/
inductive Task where
  /-- The list of type parameters, if there is one. -/
  | formals
  /-- A type parameter, or the end of the list if it is not the first one. -/
  | formalList (first : Bool)
  | classBound
  | interfaceBounds
  | superclass
  | interfaces
  | parameters
  | parameterList
  | returnType
  | exceptions
  | javaType
  | referenceType
  | classType
  /-- The type arguments of a class, if there are any. -/
  | classTail
  /-- What follows the type arguments of a class: `;` or an inner class. -/
  | classEnd
  /-- A type argument, or the end of the list if it is not the first one. -/
  | argumentList (first : Bool)
  /-- Gives an event and reads nothing. -/
  | emit (event : Event)
deriving DecidableEq, Repr

/-- The parts of each kind of signature, in order. -/
def Kind.tasks : Kind → List Task
  | classKind => [.formals, .superclass, .interfaces]
  | methodKind => [.formals, .parameters, .returnType, .exceptions]
  | fieldKind => [.referenceType]

/-- What a task leaves: the event that it gives, if any, the tasks to do first, and the spot that it
has come to. -/
structure Effect where
  event : Option Event
  tasks : List Task
  spot : Spot

namespace Spot

/-- Goes on without an event. -/
def silent (spot : Spot) (tasks : List Task) : Except (Nat × Fault) Effect :=
  .ok ⟨none, tasks, spot⟩

/-- Gives an event and goes on. -/
def give (spot : Spot) (event : Event) (tasks : List Task) : Except (Nat × Fault) Effect :=
  .ok ⟨some event, tasks, spot⟩

end Spot

namespace Task

/-- Reads the `L` and the name of a class. -/
def takeClass (spot : Spot) : Except (Nat × Fault) Effect := do
  let spot ← spot.expect 'L' .classType
  let (name, spot) ← spot.readName endsClassName .className
  spot.give (.classType name) [.classTail]

/-- Reads a type variable, or the beginning of another reference type. -/
def takeReference (spot : Spot) : Except (Nat × Fault) Effect :=
  if spot.peek = some 'L' then takeClass spot
  else if spot.peek = some 'T' then do
    let (name, spot) ← spot.tail.readName endsName .variableName
    let spot ← spot.expect ';' .variableEnd
    spot.give (.typeVariable name) []
  else if spot.peek = some '[' then spot.tail.give .arrayType [.javaType]
  else spot.refuse .referenceType

/-- Begins a type argument at a character. -/
def takeArgument (spot : Spot) (c : Char) : Except (Nat × Fault) Effect :=
  if c = '*' then spot.tail.give .unboundedArgument [.argumentList false]
  else
    let wildcard := Wildcard.ofChar c
    let spot := if wildcard = .exact then spot else spot.tail
    spot.give (.typeArgument wildcard) [.referenceType, .emit .close, .argumentList false]

/-- Does a task at a spot. -/
def perform : Task → Spot → Except (Nat × Fault) Effect
  | formals, spot =>
    if spot.peek = some '<' then spot.tail.silent [formalList true] else spot.silent []
  | formalList first, spot =>
    if spot.peek = some '>' then
      if first then .error (spot.offset, .defect .emptyFormals) else spot.tail.silent []
    else do
      let (name, spot) ← spot.readName endsName .formalName
      let spot ← spot.expect ':' .formalColon
      spot.give (.formalParameter name) [classBound, interfaceBounds, formalList false]
  | classBound, spot =>
    if spot.peek = some 'L' ∨ spot.peek = some 'T' ∨ spot.peek = some '[' then
      spot.give .classBound [referenceType]
    else spot.silent []
  | interfaceBounds, spot =>
    if spot.peek = some ':' then spot.tail.give .interfaceBound [referenceType, interfaceBounds]
    else spot.silent []
  | superclass, spot => spot.give .superclass [classType]
  | interfaces, spot =>
    if spot.peek = none then spot.silent [] else spot.give .interface [classType, interfaces]
  | parameters, spot => do
    let spot ← spot.expect '(' .openParameters
    spot.silent [parameterList]
  | parameterList, spot =>
    if spot.peek = some ')' then spot.tail.silent []
    else spot.give .parameterType [javaType, parameterList]
  | returnType, spot =>
    if spot.peek = some 'V' then spot.tail.give .returnType [emit .voidType]
    else spot.give .returnType [javaType]
  | exceptions, spot =>
    if spot.peek = some '^' then
      if spot.tail.peek = some 'L' ∨ spot.tail.peek = some 'T' then
        spot.tail.give .exceptionType [referenceType, exceptions]
      else spot.tail.refuse .exceptionType
    else spot.silent []
  | javaType, spot =>
    match spot.peek.bind BaseType.ofLetter? with
    | some type => spot.tail.give (.baseType type) []
    | none => takeReference spot
  | referenceType, spot => takeReference spot
  | classType, spot => takeClass spot
  | classTail, spot =>
    if spot.peek = some '<' then spot.tail.silent [argumentList true, classEnd]
    else spot.silent [classEnd]
  | classEnd, spot =>
    if spot.peek = some ';' then spot.tail.give .close []
    else if spot.peek = some '.' then do
      let (name, spot) ← spot.tail.readName endsName .innerName
      spot.give .close [emit (.innerClassType name), classTail]
    else spot.refuse .classEnd
  | argumentList first, spot =>
    match spot.peek with
    | none => spot.refuse .referenceType
    | some c =>
      if c = '>' then
        if first then .error (spot.offset, .defect .emptyArguments) else spot.tail.silent []
      else takeArgument spot c
  | emit event, spot => spot.give event []

/-- How many tasks a task may become without giving an event or taking a character. -/
def size : Task → Nat
  | classTail => 2
  | _ => 1

/-- The sizes of some tasks together. -/
def sizes : List Task → Nat
  | [] => 0
  | task :: tasks => task.size + sizes tasks

theorem sizes_append (tasks below : List Task) :
    sizes (tasks ++ below) = sizes tasks + sizes below := by
  induction tasks with
  | nil => simp [sizes]
  | cons task tasks ih => simp [sizes, ih, Nat.add_assoc]

end Task

/-! ### What a task without an event leaves -/

/-- Whatever goes on gives an event. -/
def GivesEvent (result : Except (Nat × Fault) Effect) : Prop :=
  ∀ tasks after, result ≠ .ok ⟨none, tasks, after⟩

theorem givesEvent_give {spot : Spot} {event : Event} {tasks : List Task} :
    GivesEvent (spot.give event tasks) := by
  simp [GivesEvent, Spot.give]

theorem givesEvent_error {fault : Nat × Fault} : GivesEvent (.error fault) := by
  simp [GivesEvent]

theorem GivesEvent.bind {α : Type} {result : Except (Nat × Fault) α}
    {next : α → Except (Nat × Fault) Effect} (h : ∀ a, GivesEvent (next a)) :
    GivesEvent (result >>= next) := by
  cases result with
  | error fault => exact givesEvent_error
  | ok a => exact h a

namespace Task

variable {spot : Spot} {c : Char}

theorem givesEvent_takeClass : GivesEvent (takeClass spot) :=
  .bind fun _ => .bind fun _ => givesEvent_give

theorem givesEvent_takeReference : GivesEvent (takeReference spot) := by
  unfold takeReference
  split
  · exact givesEvent_takeClass
  split
  · exact .bind fun _ => .bind fun _ => givesEvent_give
  split
  · exact givesEvent_give
  · exact givesEvent_error

theorem givesEvent_takeArgument : GivesEvent (takeArgument spot c) := by
  unfold takeArgument
  split <;> exact givesEvent_give

end Task

theorem Spot.length_tail {spot : Spot} {c : Char} (h : spot.peek = some c) :
    spot.tail.rest.length + 1 = spot.rest.length := by
  obtain ⟨offset, rest⟩ := spot
  cases rest with
  | nil => cases h
  | cons d rest => rfl

/-- What goes on without an event leaves less than `n` to do. -/
def LeavesLess (n : Nat) (result : Except (Nat × Fault) Effect) : Prop :=
  ∀ tasks after, result = .ok ⟨none, tasks, after⟩ →
    after.rest.length + Task.sizes tasks < n

theorem GivesEvent.leavesLess {n : Nat} {result : Except (Nat × Fault) Effect}
    (h : GivesEvent result) : LeavesLess n result :=
  fun tasks after he => absurd he (h tasks after)

theorem leavesLess_silent {n : Nat} {spot : Spot} {tasks : List Task}
    (h : spot.rest.length + Task.sizes tasks < n) : LeavesLess n (spot.silent tasks) := by
  intro tasks' after he
  cases he
  exact h

/-- **A task that gives no event leaves less to do.** -/
theorem Task.leavesLess (task : Task) (spot : Spot) :
    LeavesLess (spot.rest.length + task.size) (task.perform spot) := by
  cases task with
  | formals =>
      rw [perform]
      split
      · next hc =>
          have := Spot.length_tail hc
          exact leavesLess_silent (by simp [size, sizes]; omega)
      · exact leavesLess_silent (by simp [size, sizes])
  | formalList first =>
      rw [perform]
      split
      · next hc =>
          have := Spot.length_tail hc
          split
          · exact givesEvent_error.leavesLess
          · exact leavesLess_silent (by simp [size, sizes]; omega)
      · exact (GivesEvent.bind fun _ => .bind fun _ => givesEvent_give).leavesLess
  | classBound =>
      rw [perform]
      split
      · exact givesEvent_give.leavesLess
      · exact leavesLess_silent (by simp [size, sizes])
  | interfaceBounds =>
      rw [perform]
      split
      · exact givesEvent_give.leavesLess
      · exact leavesLess_silent (by simp [size, sizes])
  | superclass => exact givesEvent_give.leavesLess
  | interfaces =>
      rw [perform]
      split
      · exact leavesLess_silent (by simp [size, sizes])
      · exact givesEvent_give.leavesLess
  | parameters =>
      rw [perform, Spot.expect]
      split
      · next hc =>
          have := Spot.length_tail hc
          exact leavesLess_silent (by simp [size, sizes]; omega)
      · exact givesEvent_error.leavesLess
  | parameterList =>
      rw [perform]
      split
      · next hc =>
          have := Spot.length_tail hc
          exact leavesLess_silent (by simp [size, sizes]; omega)
      · exact givesEvent_give.leavesLess
  | returnType =>
      rw [perform]
      split <;> exact givesEvent_give.leavesLess
  | exceptions =>
      rw [perform]
      split
      · split
        · exact givesEvent_give.leavesLess
        · exact givesEvent_error.leavesLess
      · exact leavesLess_silent (by simp [size, sizes])
  | javaType =>
      rw [perform]
      split
      · exact givesEvent_give.leavesLess
      · exact givesEvent_takeReference.leavesLess
  | referenceType => exact givesEvent_takeReference.leavesLess
  | classType => exact givesEvent_takeClass.leavesLess
  | classTail =>
      rw [perform]
      split
      · next hc =>
          have := Spot.length_tail hc
          exact leavesLess_silent (by simp [size, sizes]; omega)
      · exact leavesLess_silent (by simp [size, sizes])
  | classEnd =>
      rw [perform]
      split
      · exact givesEvent_give.leavesLess
      split
      · exact (GivesEvent.bind fun _ => givesEvent_give).leavesLess
      · exact givesEvent_error.leavesLess
  | argumentList first =>
      rw [perform]
      split
      · exact givesEvent_error.leavesLess
      split
      · next c hc h =>
          rw [h] at hc
          have := Spot.length_tail hc
          split
          · exact givesEvent_error.leavesLess
          · exact leavesLess_silent (by simp [size, sizes]; omega)
      · exact givesEvent_takeArgument.leavesLess
  | emit event => exact givesEvent_give.leavesLess

/-! ### Agendas -/

/-- A reading of a signature of which some items have been handed out. -/
structure Agenda where
  text : String
  /-- The tasks still to do, the next one first. -/
  tasks : List Task
  spot : Spot
  finished : Bool

namespace Agenda

/-- An agenda before the first item of a signature. -/
def start (kind : Kind) (text : String) : Agenda := ⟨text, kind.tasks, ⟨0, text.toList⟩, false⟩

/-- The task on top of the stack is done, or the end of the text is asked for when none is left. -/
def pop (agenda : Agenda) : Except (Nat × Fault) (Option Event × Agenda) :=
  match agenda.tasks with
  | [] =>
    if agenda.spot.peek = none then .ok (none, { agenda with finished := true })
    else agenda.spot.refuse .trailingText
  | task :: tasks =>
    (task.perform agenda.spot).map fun effect =>
      (effect.event, { agenda with tasks := effect.tasks ++ tasks, spot := effect.spot })

/-- What is still to do: the characters left, the tasks, and the end of the reading. -/
def size (agenda : Agenda) : Nat :=
  if agenda.finished then 0
  else agenda.spot.rest.length + Task.sizes agenda.tasks + 1

variable {text : String} {task : Task} {tasks : List Task} {spot : Spot} {finished : Bool}

theorem pop_nil : pop ⟨text, [], spot, finished⟩ =
    if spot.peek = none then .ok (none, ⟨text, [], spot, true⟩)
    else spot.refuse .trailingText := rfl

theorem pop_cons : pop ⟨text, task :: tasks, spot, finished⟩ = (task.perform spot).map fun effect =>
    (effect.event, ⟨text, effect.tasks ++ tasks, effect.spot, finished⟩) := rfl

/-- An agenda gets smaller until it gives an event. -/
theorem size_lt {agenda later : Agenda} (ha : agenda.finished = false)
    (h : agenda.pop = .ok (none, later)) : later.size < agenda.size := by
  obtain ⟨text, tasks, spot, finished⟩ := agenda
  obtain rfl : finished = false := ha
  cases tasks with
  | nil =>
      rw [pop_nil] at h
      split at h
      · cases h
        simp [size]
      · cases h
  | cons task tasks =>
      rw [pop_cons] at h
      cases he : task.perform spot with
      | error fault =>
          rw [he] at h
          cases h
      | ok effect =>
          obtain ⟨event, pushed, after⟩ := effect
          rw [he] at h
          cases h
          have hless := task.leavesLess spot pushed after he
          simp only [size, Task.sizes, Task.sizes_append, Bool.false_eq_true, if_false]
          omega

/-- Answers one call: the next event, or the error that ends the reading, or nothing behind the
last item. -/
def next (agenda : Agenda) : Option (Except FormatError Event) × Agenda :=
  if _ : agenda.finished then (none, agenda)
  else
    match _ : agenda.pop with
    | .error (offset, fault) =>
      (some (.error (fault.toError agenda.text offset)), { agenda with finished := true })
    | .ok (some event, later) => (some (.ok event), later)
    | .ok (none, later) => later.next
termination_by agenda.size
decreasing_by exact size_lt (Bool.eq_false_iff.2 ‹_›) ‹_›

/-- The answer to a call, with the calls counted from zero. -/
def answer : Nat → Agenda → Option (Except FormatError Event)
  | 0, agenda => agenda.next.1
  | n + 1, agenda => answer n agenda.next.2

end Agenda

end RecordRepair.Signature
