import RecordRepair.Proofs.Signature.Length
import RecordRepair.Proofs.Signature.TreeReading
import RecordRepair.Signature.Agenda

/-! # Agendas hand out walks

An agenda gives the items of the walk of its text, one for each call, and nothing behind them.  Its
tasks differ from the goals of a scan in that a task may give its event ahead of the character that
completes the goal; what is then left of the goal is not a goal but a move.

* `moveOf tasks`: what the tasks of an agenda do to the next character, as a move of a scan.
* `Spot.scanOf`: the scan that begins with this move.
* `Explains below scan result`: the result of a task says with what a scan begins.
* `explains_perform`: each task does what its move does.
* `Agenda.next_spec`, `Agenda.answer_eq_getElem?`: so an agenda answers with the items of a walk.
* `Agenda.IdlesFor.le_size`, `Agenda.exists_idlesFor`: a call goes on over the tasks that give
  nothing, and these are bounded by what is left to do.
* `walk_ends`: every walk ends, and so does every call. -/

namespace RecordRepair.Signature

variable {k : List Goal} {below tasks : List Task} {task : Task} {spot : Spot} {event : Event}
  {c : Char} {text : String} {scan : Scan}

/-! ### Moves at a spot -/

namespace Spot

/-- The scan that a move begins at a spot. -/
def follow (spot : Spot) (move : Move) : Scan :=
  match move.next, spot.rest with
  | .error fault, _ => ⟨move.events, some (spot.offset, fault)⟩
  | .ok _, [] => ⟨move.events, none⟩
  | .ok goals, c :: rest =>
    (Signature.scan goals (spot.offset + c.utf8Size) rest).prepend move.events

theorem scan_eq_follow (goals : List Goal) (spot : Spot) :
    Signature.scan goals spot.offset spot.rest = spot.follow (step goals spot.peek) := by
  obtain ⟨offset, rest⟩ := spot
  cases rest with
  | nil =>
      rw [Signature.scan, follow, peek, List.head?_nil]
      rcases step goals none with ⟨es, next⟩
      cases next <;> rfl
  | cons c rest =>
      rw [Signature.scan, follow, peek, List.head?_cons]
      rcases step goals (some c) with ⟨es, next⟩
      cases next <;> rfl

theorem follow_emit (spot : Spot) (event : Event) (move : Move) :
    spot.follow (move.emit event) = (spot.follow move).prepend [event] := by
  obtain ⟨offset, rest⟩ := spot
  obtain ⟨es, next⟩ := move
  cases next with
  | error fault => rfl
  | ok goals => cases rest <;> rfl

theorem follow_stop (spot : Spot) (fault : Fault) :
    spot.follow (.stop fault) = ⟨[], some (spot.offset, fault)⟩ := rfl

theorem tail_of_peek (h : spot.peek = some c) : ∃ rest, spot.rest = c :: rest ∧
    spot.tail = ⟨spot.offset + c.utf8Size, rest⟩ := by
  obtain ⟨offset, rest⟩ := spot
  cases rest with
  | nil => cases h
  | cons d rest =>
      obtain rfl := Option.some.inj h
      exact ⟨rest, rfl, rfl⟩

theorem follow_leave (h : spot.peek = some c) :
    spot.follow (.leave k) = spot.tail.follow (step k spot.tail.peek) := by
  obtain ⟨rest, hrest, htail⟩ := tail_of_peek h
  rw [← scan_eq_follow, htail, follow, hrest]
  rfl

end Spot

/-! ### Names -/

variable {ends : Char → Bool} {goal : String → Goal} {done : String → Option Char → Move}

theorem Spot.afterName_of_ends (h : ∀ c ∈ spot.peek, ends c = true) :
    spot.name ends = [] ∧ spot.afterName ends = spot := by
  obtain ⟨offset, rest⟩ := spot
  cases rest with
  | nil => exact ⟨rfl, rfl⟩
  | cons c rest =>
      have hc : ends c = true := h c rfl
      simp [name, afterName, hc]

theorem Spot.afterName_of_not_ends (h : spot.peek = some c) (hc : ends c = false) :
    spot.name ends = c :: spot.tail.name ends ∧
      spot.afterName ends = spot.tail.afterName ends := by
  obtain ⟨offset, rest⟩ := spot
  cases rest with
  | nil => cases h
  | cons d rest =>
      obtain rfl := Option.some.inj h
      simp [name, afterName, tail, hc, String.ofList_cons, String.utf8ByteSize_append,
        Nat.add_assoc]

/-- Without a name, nothing is left out. -/
theorem Spot.ends_of_name_eq_nil (h : spot.name ends = []) : ∀ c ∈ spot.peek, ends c = true := by
  intro c hc
  by_contra he
  rw [Bool.not_eq_true] at he
  rw [(afterName_of_not_ends hc he).1] at h
  cases h

/-- A goal goes on with a name up to a character that ends it, which is left to `done`. -/
def GoesOn (ends : Char → Bool) (goal : String → Goal) (done : String → Option Char → Move)
    (k : List Goal) : Prop :=
  ∀ name c, step (goal name :: k) c =
    match continues? ends c with
    | some d => .leave (goal (name.push d) :: k)
    | none => done name c

theorem GoesOn.follow_of_ends (hg : GoesOn ends goal done k) (read : String)
    (h : ∀ c ∈ spot.peek, ends c = true) :
    spot.follow (step (goal read :: k) spot.peek) = (spot.afterName ends).follow
      (done (read ++ String.ofList (spot.name ends)) (spot.afterName ends).peek) := by
  obtain ⟨hname, hafter⟩ := Spot.afterName_of_ends h
  have hnone : continues? ends spot.peek = none := by
    rw [continues?, Option.filter_eq_none_iff]
    intro c hc
    simp [h c hc]
  rw [hname, hafter, hg, hnone, String.ofList_nil, String.append_empty]

/-- **A name is read to its end.** -/
theorem GoesOn.follow (hg : GoesOn ends goal done k) (read : String) (spot : Spot) :
    spot.follow (step (goal read :: k) spot.peek) = (spot.afterName ends).follow
      (done (read ++ String.ofList (spot.name ends)) (spot.afterName ends).peek) := by
  induction hrest : spot.rest generalizing read spot with
  | nil =>
      refine hg.follow_of_ends read fun c hc => ?_
      rw [Spot.peek, hrest] at hc
      cases hc
  | cons c rest ih =>
      have hc : spot.peek = some c := by rw [Spot.peek, hrest, List.head?_cons]
      cases he : ends c with
      | true =>
          refine hg.follow_of_ends read fun d hd => ?_
          obtain rfl := Option.some.inj (hc.symm.trans hd)
          exact he
      | false =>
          obtain ⟨hname, hafter⟩ := Spot.afterName_of_not_ends hc he
          obtain ⟨_, hr, htail⟩ := Spot.tail_of_peek hc
          obtain ⟨-, rfl⟩ := List.cons.inj (hrest.symm.trans hr)
          have hpush : read ++ String.ofList (c :: spot.tail.name ends) =
              read.push c ++ String.ofList (spot.tail.name ends) := by
            rw [← String.toList_inj]
            simp
          have hstep : step (goal read :: k) spot.peek = .leave (goal (read.push c) :: k) := by
            rw [hg, hc, continues?_of_not_ends he]
          rw [hstep, Spot.follow_leave hc, hname, hafter, hpush]
          exact ih _ _ (by rw [htail])

/-! ### What tasks do to a character -/

/-- The goal that a task stands for, if it does not stand behind an event of its goal. -/
def Task.goal? : Task → Option Goal
  | formals => some .formals
  | formalList first => some (if first then .firstFormal else .moreFormals)
  | classBound => some .classBound
  | interfaceBounds => some .interfaceBounds
  | superclass => some .superclass
  | interfaces => some .interfaces
  | parameters => some .parameters
  | parameterList => some .moreParameters
  | returnType => some .returnType
  | exceptions => some .exceptions
  | javaType => some .javaType
  | referenceType => some .referenceType
  | classType => none
  | classTail => none
  | classEnd => some .classEnd
  | argumentList first => some (if first then .firstArgument else .moreArguments)
  | emit event => if event = .close then some .argumentEnd else none

/-- The goals that some tasks stand for. -/
def goalsOf (tasks : List Task) : List Goal := tasks.filterMap Task.goal?

/-- What some tasks do to the next character. -/
def moveOf : List Task → Option Char → Move
  | .emit event :: tasks, c => .emit event (moveOf tasks c)
  | .classType :: tasks, c => readClass (goalsOf tasks) c
  | .classTail :: tasks, c => readClassTail (goalsOf tasks) c
  | tasks, c => step (goalsOf tasks) c

/-- All tasks stand for goals. -/
def StandForGoals (tasks : List Task) : Prop := ∀ task ∈ tasks, task.goal?.isSome = true

/-- Below what is behind an event of its goal, all tasks stand for goals. -/
def IsStack : List Task → Prop
  | [] => True
  | .emit _ :: tasks => IsStack tasks
  | _ :: tasks => StandForGoals tasks

theorem StandForGoals.cons (ht : task.goal?.isSome = true) (h : StandForGoals tasks) :
    StandForGoals (task :: tasks) := List.forall_mem_cons.2 ⟨ht, h⟩

theorem StandForGoals.isStack (h : StandForGoals tasks) : IsStack tasks := by
  induction tasks with
  | nil => trivial
  | cons task tasks ih =>
      have htasks : StandForGoals tasks := (List.forall_mem_cons.1 h).2
      cases task with
      | emit event => exact ih htasks
      | _ => exact htasks

theorem StandForGoals.moveOf_eq (h : StandForGoals tasks) (c : Option Char) :
    moveOf tasks c = step (goalsOf tasks) c := by
  induction tasks with
  | nil => rfl
  | cons task tasks ih =>
      obtain ⟨htask, htasks⟩ := List.forall_mem_cons.1 h
      cases task with
      | emit event =>
          have he : event = .close := by
            by_contra hne
            simp [Task.goal?, hne] at htask
          subst he
          rw [moveOf, ih htasks]
          rfl
      | classType => cases htask
      | classTail => cases htask
      | _ => rfl

/-- The scan of some tasks at a spot. -/
def Spot.scanOf (spot : Spot) (tasks : List Task) : Scan := spot.follow (moveOf tasks spot.peek)

theorem Spot.scanOf_cons {goal : Goal} (ht : task.goal? = some goal) (hb : StandForGoals below) :
    spot.scanOf (task :: below) = spot.follow (step (goal :: goalsOf below) spot.peek) := by
  have h : StandForGoals (task :: below) := .cons (by rw [ht]; rfl) hb
  rw [scanOf, h.moveOf_eq, goalsOf, List.filterMap_cons_some ht, goalsOf]

/-! ### What a task explains -/

/-- The result of a task says with what a scan begins: with the fault, or with the event, if there
is one, and then with the scan of the tasks that are left at the spot that is left. -/
def Explains (below : List Task) (scan : Scan) : Except (Nat × Fault) Effect → Prop
  | .error fault => scan = ⟨[], some fault⟩
  | .ok effect => IsStack (effect.tasks ++ below) ∧
      scan = (effect.spot.scanOf (effect.tasks ++ below)).prepend effect.event.toList

theorem explains_silent (tasks : List Task) (hs : IsStack (tasks ++ below)) :
    Explains below (spot.scanOf (tasks ++ below)) (spot.silent tasks) := ⟨hs, rfl⟩

theorem explains_give (tasks : List Task) (hs : IsStack (tasks ++ below)) :
    Explains below ((spot.scanOf (tasks ++ below)).prepend [event]) (spot.give event tasks) :=
  ⟨hs, rfl⟩

theorem explains_refuse {expected : Defect} :
    Explains below (spot.follow (.refuse expected spot.peek)) (spot.refuse expected) := rfl

theorem explains_expect {expected : Defect} {next : Spot → Except (Nat × Fault) Effect}
    (hc : spot.peek = some c → Explains below scan (next spot.tail))
    (hne : spot.peek ≠ some c → scan = spot.follow (.refuse expected spot.peek)) :
    Explains below scan (spot.expect c expected >>= next) := by
  rw [Spot.expect]
  split
  · next h => exact hc h
  · next h =>
      rw [hne h]
      exact explains_refuse

theorem explains_readName (hg : GoesOn ends goal done k) {expected : Defect}
    (hempty : ∀ c, done "" c = .refuse expected c)
    {next : String × Spot → Except (Nat × Fault) Effect}
    (hnext : ∀ name after, name ≠ "" →
      Explains below (after.follow (done name after.peek)) (next (name, after))) :
    Explains below (spot.follow (step (goal "" :: k) spot.peek))
      (spot.readName ends expected >>= next) := by
  rw [hg.follow, String.empty_append, Spot.readName]
  split
  · next hname =>
      have hafter := (Spot.afterName_of_ends (Spot.ends_of_name_eq_nil hname)).2
      rw [hname, hafter, String.ofList_nil, hempty]
      exact explains_refuse
  · next hname =>
      refine hnext _ _ fun he => hname ?_
      rw [← String.toList_ofList (l := spot.name ends), he]
      rfl

theorem explains_takeClass (hb : StandForGoals below) :
    Explains below (spot.follow (readClass (goalsOf below) spot.peek)) (Task.takeClass spot) := by
  refine explains_expect (fun hc => ?_) fun hc => by rw [readClass, if_neg hc]
  rw [readClass, if_pos hc, Spot.follow_leave hc]
  have hg : GoesOn endsClassName .className (fun name c =>
      if name = "" then .refuse .className c
      else .emit (.classType name) (readClassTail (goalsOf below) c)) (goalsOf below) :=
    fun _ _ => rfl
  refine explains_readName hg (fun _ => rfl) fun name after hname => ?_
  rw [if_neg hname, Spot.follow_emit]
  exact explains_give [.classTail] hb

theorem explains_takeReference (hb : StandForGoals below) :
    Explains below (spot.follow (readReference (goalsOf below) spot.peek))
      (Task.takeReference spot) := by
  rw [Task.takeReference]
  split
  · next hc =>
      have hr : readReference (goalsOf below) spot.peek = readClass (goalsOf below) spot.peek := by
        rw [readReference, readClass, if_pos hc, if_pos hc]
      rw [hr]
      exact explains_takeClass hb
  split
  · next hl hc =>
      rw [readReference, if_neg hl, if_pos hc, Spot.follow_leave hc]
      have hg : GoesOn endsName .variableName (fun name c =>
          if name = "" then .refuse .variableName c
          else if c = some ';' then .emit (.typeVariable name) (.leave (goalsOf below))
          else .refuse .variableEnd c) (goalsOf below) := fun _ _ => rfl
      refine explains_readName hg (fun _ => rfl) fun name after hname => ?_
      rw [if_neg hname]
      refine explains_expect (fun hend => ?_) fun hend => by rw [if_neg hend]
      rw [if_pos hend, Spot.follow_emit, Spot.follow_leave hend, ← hb.moveOf_eq]
      exact explains_give [] hb.isStack
  split
  · next hl ht hc =>
      rw [readReference, if_neg hl, if_neg ht, if_pos hc, Spot.follow_emit, Spot.follow_leave hc]
      exact explains_give [.javaType] hb
  · next hl ht hc =>
      rw [readReference, if_neg hl, if_neg ht, if_neg hc]
      exact explains_refuse

/-- What is left out leaves the character to the tasks below. -/
theorem explains_skip (hb : StandForGoals below) :
    Explains below (spot.follow (step (goalsOf below) spot.peek)) (spot.silent []) := by
  rw [← hb.moveOf_eq]
  exact explains_silent [] hb.isStack

/-- What takes a character leaves the next one to the tasks below. -/
theorem explains_done (hb : StandForGoals below) (hc : spot.peek = some c) :
    Explains below ((spot.follow (.leave (goalsOf below))).prepend [event])
      (spot.tail.give event []) := by
  rw [Spot.follow_leave hc, ← hb.moveOf_eq]
  exact explains_give [] hb.isStack

theorem explains_closed (hb : StandForGoals below) (hc : spot.peek = some c) :
    Explains below (spot.follow (.leave (goalsOf below))) (spot.tail.silent []) := by
  rw [Spot.follow_leave hc]
  exact explains_skip hb

/-- The name of a type parameter is read from its first character on. -/
theorem explains_formal (hb : StandForGoals below) :
    Explains below (spot.follow (readFormal (goalsOf below) spot.peek)) (do
      let (name, spot) ← spot.readName endsName .formalName
      let spot ← spot.expect ':' .formalColon
      spot.give (.formalParameter name) [.classBound, .interfaceBounds, .formalList false]) := by
  rw [Spot.readName]
  split
  · next hname =>
      have hends := Spot.ends_of_name_eq_nil hname
      have hr : readFormal (goalsOf below) spot.peek = .refuse .formalName spot.peek := by
        cases hc : spot.peek with
        | none => rfl
        | some c => rw [readFormal, if_pos (hends c hc)]
      rw [hr]
      exact explains_refuse
  · next hname =>
      obtain ⟨c, hc, he⟩ : ∃ c, spot.peek = some c ∧ endsName c = false := by
        by_contra hno
        refine hname (Spot.afterName_of_ends fun c hc => ?_).1
        by_contra he
        exact hno ⟨c, hc, by simpa using he⟩
      obtain ⟨hcons, hafter⟩ := Spot.afterName_of_not_ends hc he
      have hg : GoesOn endsName .formalName (fun name c =>
          if c = some ':' then .emit (.formalParameter name)
            (.leave (.classBound :: .interfaceBounds :: .moreFormals :: goalsOf below))
          else .refuse .formalColon c) (goalsOf below) := fun _ _ => rfl
      have hread : String.singleton c ++ String.ofList (spot.tail.name endsName) =
          String.ofList (spot.name endsName) := by
        rw [hcons, String.ofList_cons]
      have hr : readFormal (goalsOf below) spot.peek =
          .leave (.formalName (String.singleton c) :: goalsOf below) := by
        rw [hc, readFormal, he]
        rfl
      rw [hr, Spot.follow_leave hc, hg.follow, hread, ← hafter]
      refine explains_expect (fun hcolon => ?_) fun hcolon => by rw [if_neg hcolon]
      rw [if_pos hcolon, Spot.follow_emit, Spot.follow_leave hcolon]
      refine explains_give [.classBound, .interfaceBounds, .formalList false] ?_
      exact StandForGoals.cons rfl (.cons rfl hb)

theorem explains_takeArgument (hb : StandForGoals below) (hc : spot.peek = some c) :
    Explains below (spot.follow (readArgument (goalsOf below) spot.peek))
      (Task.takeArgument spot c) := by
  have hstack : IsStack ([.referenceType, .emit .close, .argumentList false] ++ below) :=
    StandForGoals.cons rfl (.cons rfl hb)
  rw [hc, readArgument, Task.takeArgument]
  split
  · rw [Spot.follow_emit, Spot.follow_leave hc]
    exact explains_give [.argumentList false] hb
  dsimp only
  split
  · next hw =>
      rw [hw, if_pos rfl, Spot.follow_emit, ← hc]
      exact explains_give _ hstack
  · next hw =>
      rw [if_neg hw, Spot.follow_emit, Spot.follow_leave hc]
      exact explains_give _ hstack

theorem explains_classEnd (hb : StandForGoals below) :
    Explains below (spot.follow (readClassEnd (goalsOf below) spot.peek))
      (Task.classEnd.perform spot) := by
  rw [Task.perform, readClassEnd]
  split
  · next hc =>
      rw [Spot.follow_emit]
      exact explains_done hb hc
  split
  · next hc =>
      rw [Spot.follow_leave hc]
      have hg : GoesOn endsName .innerName (fun name c =>
          if name = "" then .refuse .innerName c
          else .emit .close (.emit (.innerClassType name) (readClassTail (goalsOf below) c)))
          (goalsOf below) := fun _ _ => rfl
      refine explains_readName hg (fun _ => rfl) fun name after hname => ?_
      rw [if_neg hname, Spot.follow_emit]
      exact explains_give [.emit (.innerClassType name), .classTail] hb
  · exact explains_refuse

/-- Whether a `>` may end a list of type arguments depends on whether one has been read. -/
theorem explains_argumentList (first : Bool) (hb : StandForGoals below) :
    Explains below
      (spot.follow (step ((if first then .firstArgument else .moreArguments) :: goalsOf below)
        spot.peek))
      ((Task.argumentList first).perform spot) := by
  have hstep : step ((if first then .firstArgument else .moreArguments) :: goalsOf below)
      spot.peek = if spot.peek = some '>' then
        if first then .stop (.defect .emptyArguments) else .leave (goalsOf below)
      else readArgument (goalsOf below) spot.peek := by
    cases first <;> rfl
  rw [hstep, Task.perform]
  cases hc : spot.peek with
  | none =>
      have hr : readArgument (goalsOf below) none = .refuse .referenceType spot.peek := by
        rw [hc, readArgument]
      rw [if_neg (Option.some_ne_none '>').symm, hr]
      exact explains_refuse
  | some c =>
      dsimp only
      by_cases hclose : c = '>'
      · rw [if_pos (congrArg some hclose), if_pos hclose]
        cases first with
        | true => exact Spot.follow_stop spot _
        | false => exact explains_closed hb hc
      · rw [if_neg fun he => hclose (Option.some.inj he), if_neg hclose, ← hc]
        exact explains_takeArgument hb hc

/-- **Each task does what its move does.** -/
theorem explains_perform (spot : Spot) (hs : IsStack (task :: below)) :
    Explains below (spot.scanOf (task :: below)) (task.perform spot) := by
  cases task with
  | formals =>
      rw [Spot.scanOf_cons rfl hs, step, Task.perform]
      split
      · next hc =>
          rw [Spot.follow_leave hc]
          exact explains_silent [.formalList true] hs
      · exact explains_skip hs
  | formalList first =>
      rw [Spot.scanOf_cons rfl hs, Task.perform]
      cases first with
      | true =>
          rw [if_pos rfl, step]
          split
          · exact Spot.follow_stop spot _
          · exact explains_formal hs
      | false =>
          rw [if_neg Bool.false_ne_true, step]
          split
          · next hc => exact explains_closed hs hc
          · exact explains_formal hs
  | classBound =>
      rw [Spot.scanOf_cons rfl hs, step, Task.perform]
      split
      · rw [Spot.follow_emit]
        exact explains_give [.referenceType] hs
      · exact explains_skip hs
  | interfaceBounds =>
      rw [Spot.scanOf_cons rfl hs, step, Task.perform]
      split
      · next hc =>
          rw [Spot.follow_emit, Spot.follow_leave hc]
          exact explains_give [.referenceType, .interfaceBounds] (StandForGoals.cons rfl hs)
      · exact explains_skip hs
  | superclass =>
      rw [Spot.scanOf_cons rfl hs, step, Spot.follow_emit]
      exact explains_give [.classType] hs
  | interfaces =>
      rw [Spot.scanOf_cons rfl hs, step, Task.perform]
      split
      · exact explains_skip hs
      · rw [Spot.follow_emit]
        exact explains_give [.classType, .interfaces] (StandForGoals.cons rfl hs)
  | parameters =>
      rw [Spot.scanOf_cons rfl hs, step, Task.perform]
      refine explains_expect (fun hc => ?_) fun hc => by rw [if_neg hc]
      rw [if_pos hc, Spot.follow_leave hc]
      exact explains_silent [.parameterList] hs
  | parameterList =>
      rw [Spot.scanOf_cons rfl hs, step, Task.perform]
      split
      · next hc => exact explains_closed hs hc
      · rw [Spot.follow_emit]
        exact explains_give [.javaType, .parameterList] (StandForGoals.cons rfl hs)
  | returnType =>
      rw [Spot.scanOf_cons rfl hs, step, Spot.follow_emit, Task.perform]
      split
      · next hc =>
          have hb : StandForGoals below := hs
          rw [Spot.follow_emit, Spot.follow_leave hc, ← hb.moveOf_eq, ← Spot.follow_emit]
          exact explains_give [.emit .voidType] hb.isStack
      · exact explains_give [.javaType] hs
  | exceptions =>
      rw [Spot.scanOf_cons rfl hs, step, Task.perform]
      split
      · next hc =>
          rw [Spot.follow_leave hc, step]
          split
          · rw [Spot.follow_emit]
            exact explains_give [.referenceType, .exceptions] (StandForGoals.cons rfl hs)
          · exact explains_refuse
      · exact explains_skip hs
  | javaType =>
      rw [Spot.scanOf_cons rfl hs, step, Task.perform, readJava]
      cases hb : spot.peek.bind BaseType.ofLetter? with
      | some type =>
          obtain ⟨c, hc, -⟩ := Option.bind_eq_some_iff.1 hb
          dsimp only
          rw [Spot.follow_emit]
          exact explains_done hs hc
      | none => exact explains_takeReference hs
  | referenceType =>
      rw [Spot.scanOf_cons rfl hs]
      exact explains_takeReference hs
  | classType => exact explains_takeClass hs
  | classTail =>
      rw [Spot.scanOf, moveOf, Task.perform, readClassTail]
      split
      · next hc =>
          rw [Spot.follow_leave hc]
          exact explains_silent [.argumentList true, .classEnd] (StandForGoals.cons rfl hs)
      · exact explains_silent [.classEnd] hs
  | classEnd =>
      rw [Spot.scanOf_cons rfl hs]
      exact explains_classEnd hs
  | argumentList first =>
      rw [Spot.scanOf_cons rfl hs]
      exact explains_argumentList first hs
  | emit event =>
      rw [Spot.scanOf, moveOf, Spot.follow_emit]
      exact explains_give [] hs

/-! ### Items of an agenda -/

/-- The events of a scan of a text, and then the error of its fault if it has one. -/
def Scan.items (text : String) (scan : Scan) : List (Except FormatError Event) :=
  scan.events.map .ok ++ (scan.fault.map fun f => f.2.toError text f.1).toList.map .error

theorem Scan.items_prepend (events : List Event) :
    (scan.prepend events).items text = events.map .ok ++ scan.items text := by
  simp [Scan.items, Scan.prepend]

namespace Agenda

variable {agenda later last : Agenda} {count : Nat}

/-- The items that an agenda has not handed out. -/
def items (agenda : Agenda) : List (Except FormatError Event) :=
  if agenda.finished then [] else (agenda.spot.scanOf agenda.tasks).items agenda.text

theorem items_of_finished (h : agenda.finished = true) : agenda.items = [] := by
  rw [items, if_pos h]

theorem items_start (kind : Kind) (text : String) :
    (start kind text).items = (walk kind text).items := by
  have hstand : StandForGoals kind.tasks := by
    cases kind <;> simp [StandForGoals, Kind.tasks, Task.goal?]
  have hgoals : goalsOf kind.tasks = kind.goals := by cases kind <;> rfl
  have hscan : (start kind text).spot.scanOf kind.tasks =
      Signature.scan kind.goals 0 text.toList := by
    rw [Spot.scanOf, hstand.moveOf_eq, hgoals, ← Spot.scan_eq_follow]
    rfl
  exact congrArg (Scan.items text) hscan

theorem isStack_start (kind : Kind) (text : String) : IsStack (start kind text).tasks := by
  cases kind <;> simp [start, Kind.tasks, IsStack, StandForGoals, Task.goal?]

theorem items_pop_nil (text : String) (spot : Spot) :
    (⟨text, [], spot, false⟩ : Agenda).items =
      if spot.peek = none then []
      else [.error ((Fault.unexpected .trailingText spot.peek).toError text spot.offset)] := by
  obtain ⟨offset, rest⟩ := spot
  cases rest <;> rfl

/-- **What a task gives comes off the items.** -/
theorem items_pop (hf : agenda.finished = false) (hs : IsStack agenda.tasks) :
    match agenda.pop with
    | .error (offset, fault) => agenda.items = [.error (fault.toError agenda.text offset)]
    | .ok (event, later) =>
      IsStack later.tasks ∧ agenda.items = event.toList.map .ok ++ later.items := by
  obtain ⟨text, tasks, spot, finished⟩ := agenda
  obtain rfl : finished = false := hf
  cases tasks with
  | nil =>
      rw [pop_nil, items_pop_nil]
      by_cases hc : spot.peek = none
      · rw [if_pos hc, if_pos hc]
        exact ⟨trivial, rfl⟩
      · rw [if_neg hc, if_neg hc]
        rfl
  | cons task tasks =>
      have he := explains_perform spot hs
      rw [pop_cons, items]
      cases hp : task.perform spot with
      | error fault =>
          rw [hp] at he
          exact congrArg (Scan.items text) he
      | ok effect =>
          rw [hp] at he
          exact ⟨he.1, (congrArg (Scan.items text) he.2).trans (Scan.items_prepend _)⟩

/-- **A call takes the first item off.** -/
theorem next_spec (agenda : Agenda) (hs : IsStack agenda.tasks) :
    agenda.next.1 = agenda.items.head? ∧ agenda.next.2.items = agenda.items.tail ∧
      IsStack agenda.next.2.tasks := by
  fun_induction next agenda with
  | case1 agenda hf =>
      rw [items_of_finished hf]
      exact ⟨rfl, rfl, hs⟩
  | case2 agenda hf offset fault hp =>
      have hitems := items_pop (Bool.eq_false_iff.2 hf) hs
      rw [hp] at hitems
      rw [hitems]
      exact ⟨rfl, items_of_finished rfl, hs⟩
  | case3 agenda hf event later hp =>
      have hitems := items_pop (Bool.eq_false_iff.2 hf) hs
      rw [hp] at hitems
      obtain ⟨hstack, hitems⟩ := hitems
      rw [hitems]
      exact ⟨rfl, rfl, hstack⟩
  | case4 agenda hf later hp ih =>
      have hitems := items_pop (Bool.eq_false_iff.2 hf) hs
      rw [hp] at hitems
      obtain ⟨hstack, hitems⟩ := hitems
      rw [hitems]
      exact ih hstack

/-- **The answers of an agenda are its items**, one after the other. -/
theorem answer_eq_getElem? (n : Nat) (agenda : Agenda) (hs : IsStack agenda.tasks) :
    agenda.answer n = agenda.items[n]? := by
  induction n generalizing agenda with
  | zero =>
      obtain ⟨hanswer, -, -⟩ := next_spec agenda hs
      rw [answer, hanswer, List.head?_eq_getElem?]
  | succ n ih =>
      obtain ⟨-, hitems, hstack⟩ := next_spec agenda hs
      rw [answer, ih _ hstack, hitems, List.getElem?_tail]

/-! ### The end of a call -/

/-- A call takes a task from the stack that gives neither an event nor a fault, and goes on. -/
def Idles (agenda later : Agenda) : Prop :=
  agenda.finished = false ∧ agenda.pop = .ok (none, later)

/-- A call goes on over a number of tasks. -/
inductive IdlesFor : Nat → Agenda → Agenda → Prop where
  | stop (agenda : Agenda) : IdlesFor 0 agenda agenda
  | step {agenda later last : Agenda} {count : Nat} (hi : Idles agenda later)
      (hrest : IdlesFor count later last) : IdlesFor (count + 1) agenda last

/-- **A call goes on over no more tasks than are left to do.** -/
theorem IdlesFor.le_size (h : IdlesFor count agenda last) : count + last.size ≤ agenda.size := by
  induction h with
  | stop agenda => exact (Nat.zero_add _).le
  | step hi _ ih =>
      have hlt := size_lt hi.1 hi.2
      omega

theorem Idles.next_eq (h : Idles agenda later) : agenda.next = later.next := by
  obtain ⟨hf, hp⟩ := h
  rw [next, dif_neg (Bool.eq_false_iff.1 hf)]
  split <;> rename_i hpop <;> rw [hp] at hpop <;> cases hpop
  rfl

/-- **Every call comes to its answer**: it goes on up to a task that ends it. -/
theorem exists_idlesFor (agenda : Agenda) :
    ∃ count last, IdlesFor count agenda last ∧ (∀ later, ¬ Idles last later) ∧
      agenda.next = last.next := by
  induction hn : agenda.size using Nat.strong_induction_on generalizing agenda with
  | _ n ih =>
      subst hn
      by_cases hidle : ∃ later, Idles agenda later
      · obtain ⟨later, hi⟩ := hidle
        obtain ⟨count, last, hrest, hlast, hnext⟩ := ih later.size (size_lt hi.1 hi.2) later rfl
        exact ⟨count + 1, last, .step hi hrest, hlast, hi.next_eq.trans hnext⟩
      · exact ⟨0, agenda, .stop agenda, fun later hi => hidle ⟨later, hi⟩, rfl⟩

end Agenda

/-! ### Cursors -/

namespace Cursor

/-- The answer of a cursor to a call, with the calls counted from zero. -/
def answer : Nat → Cursor → Option (Except FormatError Event)
  | 0, cursor => cursor.next.1
  | n + 1, cursor => answer n cursor.next.2

theorem answer_eq_getElem? (n : Nat) (cursor : Cursor) : cursor.answer n = cursor.rest[n]? := by
  induction n generalizing cursor with
  | zero => rw [answer, next, List.head?_eq_getElem?]
  | succ n ih => rw [answer, ih, next, List.getElem?_tail]

end Cursor

/-! ### Walks -/

/-- **Every walk ends.**  Its items are at most two for each byte of the text and two besides.  An
agenda answers with these items, call by call, and then with nothing for ever, as a cursor does.
Each call ends as well: it goes on over no more tasks than are left to do, up to one with which it
ends. -/
theorem walk_ends (kind : Kind) (text : String) :
    (walk kind text).items.length ≤ 2 * text.utf8ByteSize + 2 ∧
      (∀ n, (Agenda.start kind text).answer n = (walk kind text).items[n]? ∧
        (Cursor.start kind text).answer n = (walk kind text).items[n]?) ∧
      (∀ n, (walk kind text).items.length ≤ n → (Agenda.start kind text).answer n = none) ∧
      ∀ agenda : Agenda, ∃ count last, count ≤ agenda.size ∧ Agenda.IdlesFor count agenda last ∧
        (∀ later, ¬ Agenda.Idles last later) ∧ agenda.next = last.next := by
  have hanswer : ∀ n, (Agenda.start kind text).answer n = (walk kind text).items[n]? := by
    intro n
    rw [Agenda.answer_eq_getElem? n _ (Agenda.isStack_start kind text), Agenda.items_start]
  refine ⟨length_items_le kind text, fun n => ⟨hanswer n, ?_⟩, fun n hn => ?_, fun agenda => ?_⟩
  · exact Cursor.answer_eq_getElem? n (.start kind text)
  · rw [hanswer]
    exact List.getElem?_eq_none hn
  · obtain ⟨count, last, hidles, hlast, hnext⟩ := agenda.exists_idlesFor
    have hsize := hidles.le_size
    exact ⟨count, last, by omega, hidles, hlast, hnext⟩

theorem walk_ends_empty : (walk .classKind "").items.length = 2 ∧
    (Agenda.start .classKind "").answer 2 = none := by
  have hlength : (walk .classKind "").items.length = 2 := by decide
  obtain ⟨-, -, hnone, -⟩ := walk_ends .classKind ""
  exact ⟨hlength, hnone 2 hlength.le⟩

end RecordRepair.Signature
