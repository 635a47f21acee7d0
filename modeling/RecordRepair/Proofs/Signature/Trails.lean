import RecordRepair.Proofs.Signature.Stream
import RecordRepair.Signature.Trail

/-! # Trails of walks

A place refuses a `close` for which nothing is open, and the end of a signature where something
still is.  The former never happens on a walk, and the latter only on a walk that ends with an
error.

* `level? n es`: the number of open structures after some events, if no `close` comes too early.
* `owed goals`: the number of `close` events that the goals of a stack have to complete.
* `Steps.level?`: the two stay equal.
* `Place.along`: events with the place after each of them.
* `trail_steps` and `trail_error`: a trail passes all events of its walk, and has no error of its
  own.
* `validate_eq_ok_iff`: so validation is the grammar check. -/

namespace RecordRepair.Signature

variable {goals rest left pushed : List Goal} {es fs : List Event} {goal : Goal} {c : Char}
  {s : List Char} {n m r : Nat} {kind : Kind} {text : String} {place : Place}

/-! ### Levels -/

/-- The number of open structures after some events, if each `close` has something to close. -/
def level? : Nat → List Event → Option Nat
  | n, [] => some n
  | n, e :: es => if e = .close ∧ n = 0 then none else level? (Place.depthAfter n e) es

theorem level?_cons_eq_some_iff {e : Event} : level? n (e :: es) = some m ↔
    ¬ (e = .close ∧ n = 0) ∧ level? (Place.depthAfter n e) es = some m := by
  rw [level?]
  split
  · next hc => simp [hc]
  · next hc => simp only [hc, not_false_eq_true, true_and]

theorem level?_append (h : level? n es = some m) : level? n (es ++ fs) = level? m fs := by
  induction es generalizing n with
  | nil =>
      obtain rfl := Option.some.inj h
      rfl
  | cons e es ih =>
      obtain ⟨hc, h⟩ := level?_cons_eq_some_iff.1 h
      rw [List.cons_append, level?, if_neg hc, ih h]

@[simp] theorem Place.advance_depth (e : Event) :
    (place.advance e).depth = Place.depthAfter place.depth e := by
  cases e <;> rfl

@[simp] theorem Place.advance_declared (e : Event) :
    (place.advance e).declared = e.formal?.toList ++ place.declared := by
  cases e <;> rfl

/-- Events with the place after each of them. -/
def Place.along : Place → List Event → List (Event × Place)
  | _, [] => []
  | place, e :: es => (e, place.advance e) :: along (place.advance e) es

theorem Place.map_fst_along : (place.along es).map Prod.fst = es := by
  induction es generalizing place with
  | nil => rfl
  | cons e es ih => rw [along, List.map_cons, ih]

/-- A place declares nothing but what the events name. -/
theorem Place.declared_of_mem_along {step : Event × Place} {name : String}
    (h : step ∈ place.along es) (hn : name ∈ step.2.declared) :
    name ∈ place.declared ∨ .formalParameter name ∈ es := by
  induction es generalizing place with
  | nil => cases h
  | cons e es ih =>
      have hde : name ∈ (place.advance e).declared →
          name ∈ place.declared ∨ .formalParameter name ∈ e :: es := by
        intro hn
        rw [advance_declared, List.mem_append, Option.mem_toList] at hn
        rcases hn with hn | hn
        · have he : e = .formalParameter name := by
            cases e <;> simp_all [Event.formal?]
          exact Or.inr (List.mem_cons.2 (Or.inl he.symm))
        · exact Or.inl hn
      rcases List.mem_cons.1 h with rfl | h
      · exact hde hn
      · rcases ih h with hn | hn
        · exact hde hn
        · exact Or.inr (List.mem_cons_of_mem _ hn)

theorem Place.apply_eq_ok {e : Event} (text : String) (h : ¬ (e = .close ∧ place.depth = 0)) :
    place.apply text e = .ok (place.advance e) := by
  have hu : place.underflows e = false := by
    simpa [underflows] using h
  rw [apply, hu]
  rfl

/-- Places follow events just as far as the levels do. -/
theorem Trail.follow_of_level? (text : String) (place : Place)
    (h : level? place.depth es = some n) :
    (Trail.follow text place es).error = none ∧
      (Trail.follow text place es).steps = place.along es ∧
      (Trail.follow text place es).last.depth = n := by
  induction es generalizing place with
  | nil => exact ⟨rfl, rfl, Option.some.inj h⟩
  | cons e es ih =>
      obtain ⟨hc, h⟩ := level?_cons_eq_some_iff.1 h
      rw [← Place.advance_depth] at h
      obtain ⟨herror, hsteps, hlast⟩ := ih (place.advance e) h
      rw [Trail.follow, Place.apply_eq_ok text hc]
      exact ⟨herror, congrArg (List.cons (e, place.advance e)) hsteps, hlast⟩

/-! ### What the goals owe -/

/-- The number of `close` events that a goal has to complete.  An inner class begins with the one
for the class around it. -/
def Goal.owes : Goal → Nat
  | innerName _ => 1
  | classEnd => 1
  | argumentEnd => 1
  | _ => 0

theorem Goal.owes_of_isOptional (h : goal.isOptional = true) : goal.owes = 0 := by
  cases goal <;> first | rfl | cases h

/-- The number of `close` events that some goals have to complete. -/
def owed : List Goal → Nat
  | [] => 0
  | goal :: goals => goal.owes + owed goals

@[simp] theorem owed_nil : owed [] = 0 := rfl

@[simp] theorem owed_cons : owed (goal :: goals) = goal.owes + owed goals := rfl

@[simp] theorem owed_append : owed (goals ++ rest) = owed goals + owed rest := by
  induction goals with
  | nil => rw [List.nil_append, owed_nil, Nat.zero_add]
  | cons goal goals ih => rw [List.cons_append, owed_cons, owed_cons, ih, Nat.add_assoc]

theorem OpensReference.level? (h : OpensReference c es pushed) :
    level? n es = some (owed pushed + n) := by
  cases h <;> simp [Signature.level?, Goal.owes, Place.depthAfter, Event.opens]

theorem OpensType.level? (h : OpensType c es pushed) : level? n es = some (owed pushed + n) := by
  cases h with
  | base b => simp [Signature.level?, Place.depthAfter, Event.opens]
  | reference hr => exact hr.level?

theorem EndsClass.level? (h : EndsClass c es pushed) :
    level? (n + 1) es = some (owed pushed + n) := by
  cases h with
  | close => simp [Signature.level?, Place.depthAfter, Event.opens]
  | inner =>
      simp [Signature.level?, Goal.owes]
      omega

theorem FollowsName.level? (h : FollowsName c es pushed) :
    level? (n + 1) es = some (owed pushed + n) := by
  cases h with
  | arguments =>
      simp [Signature.level?, Goal.owes]
      omega
  | ends he => exact he.level?

theorem OpensArgument.level? (h : OpensArgument c es pushed) :
    level? n es = some (owed pushed + n) := by
  cases h with
  | unbounded => simp [Signature.level?, Goal.owes, Place.depthAfter, Event.opens]
  | wildcard _ =>
      simp [Signature.level?, Goal.owes, Place.depthAfter, Event.opens]
      omega
  | exact hr =>
      have := hr.level? (n := n + 1)
      simp [Signature.level?, Goal.owes, Place.depthAfter, Event.opens, this]
      omega

/-- A goal closes what it owes, apart from what the goals that replace it owe. -/
theorem Acts.level? (h : Acts goal c es pushed) :
    level? (goal.owes + n) es = some (owed pushed + n) := by
  cases h with
  | classBound h => simp [Signature.level?, Goal.owes, Place.depthAfter, Event.opens, h.level?]
  | parameter h => simp [Signature.level?, Goal.owes, Place.depthAfter, Event.opens, h.level?]
  | result h => simp [Signature.level?, Goal.owes, Place.depthAfter, Event.opens, h.level?]
  | exceptionType h => simp [Signature.level?, Goal.owes, Place.depthAfter, Event.opens, h.level?]
  | javaType h => simp [Goal.owes, h.level?]
  | referenceType h => simp [Goal.owes, h.level?]
  | classEnd _ h => simp [Signature.level?, Goal.owes, Place.depthAfter, Event.opens, h.level?]
  | innerEnd _ h =>
      simp [Signature.level?, Goal.owes, Place.depthAfter, Event.opens, Nat.add_comm 1 n, h.level?]
  | afterArguments h => simp [Goal.owes, Nat.add_comm 1 n, h.level?]
  | firstArgument h => simp [Goal.owes, h.level?]
  | moreArguments h => simp [Goal.owes, h.level?]
  | _ => simp [Signature.level?, Goal.owes, Place.depthAfter, Event.opens]

theorem Skips.level? (h : Skips goal c es) : level? (goal.owes + n) es = some n := by
  cases h with
  | argumentEnd => simp [Signature.level?, Goal.owes, Place.depthAfter, Event.opens]
  | _ => simp [Signature.level?, Goal.owes]

theorem Steps.level? (h : Steps goals c es left) : level? (owed goals) es = some (owed left) := by
  induction h with
  | act ha => rw [owed_cons, ha.level?, owed_append]
  | skip hs _ ih => rw [owed_cons, level?_append hs.level?, ih]

theorem Ends.level? (h : Ends goals es) : level? (owed goals) es = some 0 := by
  induction h with
  | nil => rfl
  | @skip goal goals es ho _ ih =>
      rw [owed_cons, Goal.owes_of_isOptional ho, Nat.zero_add, ih]
  | argumentEnd _ ih => simp [Signature.level?, Goal.owes, Place.depthAfter, Event.opens, ih]

theorem Completes.level? (h : Completes goals s es) : level? (owed goals) es = some 0 := by
  induction h with
  | stop hs => exact (ends_of_step hs).level?
  | step hs _ ih => rw [level?_append (steps_of_step hs).level?, ih]

theorem Fails.level? (h : Fails goals es) : ∃ n, level? (owed goals) es = some n := by
  induction h with
  | @skip goal rest es ho _ ih =>
      rwa [owed_cons, Goal.owes_of_isOptional ho, Nat.zero_add]
  | argumentEnd _ ih => simpa [Signature.level?, Goal.owes, Place.depthAfter, Event.opens] using ih
  | _ => simp [Signature.level?, Goal.owes]

/-- A scan closes no more than it opened, with or without a fault. -/
theorem scan_level? (goals : List Goal) (offset : Nat) (s : List Char) :
    ∃ n, level? (owed goals) (scan goals offset s).events = some n := by
  refine scan_induction (motive := fun goals _ es => ∃ n, Signature.level? (owed goals) es = some n)
    (fun he => ⟨0, he.level?⟩) Fails.level? ?_ goals offset s
  intro goals c es left offset s hs ih
  rwa [level?_append hs.level?]

/-! ### The trail of a walk -/

theorem owed_goals (kind : Kind) : owed kind.goals = 0 := by
  cases kind <;> rfl

theorem exists_level?_of_walk (kind : Kind) (text : String) :
    ∃ n, level? 0 (walk kind text).events = some n := by
  have hl := scan_level? kind.goals 0 text.toList
  rwa [owed_goals] at hl

/-- A walk without an error closes what it opens, and no more. -/
theorem level?_of_walk (h : (walk kind text).error = none) :
    level? 0 (walk kind text).events = some 0 := by
  have hl := (completes_of_walk h).level?
  rwa [owed_goals] at hl

/-- **A trail passes all events of its walk.** -/
theorem trail_steps (kind : Kind) (text : String) :
    (trail kind text).steps = (Place.start kind).along (walk kind text).events := by
  obtain ⟨n, hl⟩ := exists_level?_of_walk kind text
  exact (Trail.follow_of_level? text (.start kind) hl).2.1

/-- A trail has no error of its own. -/
theorem trail_error (kind : Kind) (text : String) :
    (trail kind text).error = (walk kind text).error := by
  obtain ⟨n, hl⟩ := exists_level?_of_walk kind text
  have hf := (Trail.follow_of_level? text (.start kind) hl).1
  rw [trail, Trail.ofWalk, hf]
  rfl

/-- **Validation is the grammar check.**  It accepts the texts whose walk ends without an error. -/
theorem validate_eq_ok_iff : validate kind text = .ok () ↔ (walk kind text).error = none := by
  rw [validate, Trail.finish, trail_error]
  cases he : (walk kind text).error with
  | some error => simp
  | none =>
      have hl := (Trail.follow_of_level? text (.start kind) (level?_of_walk he)).2.2
      have hlast : (trail kind text).last.depth = 0 := hl
      simp [Place.finish, hlast]

/-- What is refused is refused for the error of the walk. -/
theorem validate_eq_error_iff {error : FormatError} :
    validate kind text = .error error ↔ (walk kind text).error = some error := by
  cases he : (walk kind text).error with
  | some first =>
      rw [validate, Trail.finish, trail_error, he, Except.error.injEq, Option.some.injEq]
  | none =>
      rw [validate_eq_ok_iff.2 he]
      simp

end RecordRepair.Signature
