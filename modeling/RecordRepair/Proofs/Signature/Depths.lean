import RecordRepair.Proofs.Signature.Trails

/-! # How deep a signature gets

Places follow a walk without ever refusing an event, and the number of open structures is bounded by
the length of the text.  A character opens one structure at most.  It does so with a delay, since
the name of a class ends only at the character behind it, or at the end of the text; so the bound is
kept for what the goals may open without another character.

* `levels n es`: the number of open structures after each of some events.
* `height goals`: how many structures the goals may have open before they take another character.
* `Steps.risesTo`: a step raises the height by one at most, and its events stay below that.
* `scan_levels_le`: so a scan is no deeper than its text is long.
* `walk_balanced`: the places of any walk are within these bounds, and validation reports the error
  of the walk and no other. -/

namespace RecordRepair.Signature

variable {goals rest left pushed : List Goal} {es fs : List Event} {goal : Goal} {c : Char}
  {s : List Char} {n m d k : Nat} {kind : Kind} {text : String} {place : Place}

/-! ### Levels after events -/

/-- The number of open structures after each of some events. -/
def levels : Nat → List Event → List Nat
  | _, [] => []
  | n, e :: es => Place.depthAfter n e :: levels (Place.depthAfter n e) es

@[simp] theorem levels_nil : levels n [] = [] := rfl

@[simp] theorem levels_cons (e : Event) :
    levels n (e :: es) = Place.depthAfter n e :: levels (Place.depthAfter n e) es := rfl

theorem levels_append (h : level? n es = some m) :
    levels n (es ++ fs) = levels n es ++ levels m fs := by
  induction es generalizing n with
  | nil =>
      obtain rfl := Option.some.inj h
      rfl
  | cons e es ih =>
      obtain ⟨-, h⟩ := level?_cons_eq_some_iff.1 h
      rw [List.cons_append, levels_cons, ih h, levels_cons, List.cons_append]

/-- The level after the first events of a list is the one before the list or one of its levels. -/
theorem level?_take (h : level? n es = some m) (k : Nat) :
    ∃ d, level? n (es.take k) = some d ∧ (d = n ∨ d ∈ levels n es) := by
  induction es generalizing n k with
  | nil => exact ⟨n, by rw [List.take_nil, level?], Or.inl rfl⟩
  | cons e es ih =>
      cases k with
      | zero => exact ⟨n, rfl, Or.inl rfl⟩
      | succ k =>
          obtain ⟨hc, h⟩ := level?_cons_eq_some_iff.1 h
          obtain ⟨d, hd, hm⟩ := ih h k
          refine ⟨d, level?_cons_eq_some_iff.2 ⟨hc, hd⟩, Or.inr ?_⟩
          rw [levels_cons, List.mem_cons]
          exact hm

/-- Events that never close more than they opened can all be applied. -/
theorem foldlM_apply_eq_ok (text : String) (place : Place)
    (h : level? place.depth es = some n) :
    es.foldlM (Place.apply text) place = .ok (es.foldl Place.advance place) ∧
      (es.foldl Place.advance place).depth = n := by
  induction es generalizing place with
  | nil => exact ⟨rfl, Option.some.inj h⟩
  | cons e es ih =>
      obtain ⟨hc, h⟩ := level?_cons_eq_some_iff.1 h
      rw [← Place.advance_depth] at h
      rw [List.foldlM_cons, Place.apply_eq_ok text hc]
      exact ih (place.advance e) h

theorem foldlM_apply_of_level? (text : String) (place : Place)
    (h : level? place.depth es = some n) : ∃ last,
      es.foldlM (Place.apply text) place = .ok last ∧ last.depth = n :=
  ⟨_, foldlM_apply_eq_ok text place h⟩

/-! ### The height of goals -/

/-- How many structures a goal may have open before it takes another character: those that it has to
close, and those that it opens once it knows what comes next. -/
def Goal.height : Goal → Nat
  | className name => if name = "" then 0 else 1
  | innerName _ => 1
  | classEnd => 1
  | firstArgument => 1
  | moreArguments => 1
  | argumentEnd => 1
  | _ => 0

/-- How many structures some goals may have open before they take another character. -/
def height : List Goal → Nat
  | [] => 0
  | goal :: goals => goal.height + height goals

@[simp] theorem height_nil : height [] = 0 := rfl

@[simp] theorem height_cons : height (goal :: goals) = goal.height + height goals := rfl

@[simp] theorem height_append : height (goals ++ rest) = height goals + height rest := by
  induction goals with
  | nil => simp
  | cons goal goals ih => simp [ih, Nat.add_assoc]

theorem Goal.owes_le_height (goal : Goal) : goal.owes ≤ goal.height := by
  cases goal <;> simp [owes, height]

theorem owed_le_height (goals : List Goal) : owed goals ≤ height goals := by
  induction goals with
  | nil => exact Nat.le_refl 0
  | cons goal goals ih => exact Nat.add_le_add goal.owes_le_height ih

theorem Goal.height_of_isOptional (h : goal.isOptional = true) : goal.height = 0 := by
  cases goal <;> first | rfl | cases h

/-! ### How far a step rises -/

/-- With `o` structures open, some events and the goals left behind them rise to `k` at most,
counted from where the goals below stand. -/
structure RisesTo (o k : Nat) (es : List Event) (pushed : List Goal) : Prop where
  height_le : height pushed ≤ k
  levels_le : ∀ n, ∀ d ∈ levels (o + n) es, d ≤ k + n

variable {o : Nat}

namespace RisesTo

theorem mono (h : RisesTo o k es pushed) (hk : k ≤ m) : RisesTo o m es pushed :=
  ⟨h.height_le.trans hk, fun n d hd => (h.levels_le n d hd).trans (Nat.add_le_add_right hk n)⟩

theorem nil (h : height pushed ≤ k) : RisesTo o k [] pushed := ⟨h, by simp⟩

/-- Goals behind those that replace a goal raise the height, and what they have to close is open
during the events. -/
theorem before (h : RisesTo o k es pushed) (rest : List Goal) (hk : k + height rest ≤ m) :
    RisesTo (o + owed rest) m es (pushed ++ rest) := by
  have howed := owed_le_height rest
  refine ⟨?_, fun n d hd => ?_⟩
  · have hp := h.height_le
    rw [height_append]
    omega
  · rw [Nat.add_assoc] at hd
    have hle := h.levels_le (owed rest + n) d hd
    omega

theorem opening {e : Event} (he : e.opens = true) (h : RisesTo (o + 1) k es pushed)
    (hk : o + 1 ≤ k) : RisesTo o k (e :: es) pushed := by
  refine ⟨h.height_le, fun n => ?_⟩
  have hd : Place.depthAfter (o + n) e = o + 1 + n := by
    rw [Place.depthAfter, if_pos he, Nat.add_right_comm]
  rw [levels_cons, hd]
  exact List.forall_mem_cons.2 ⟨Nat.add_le_add_right hk n, h.levels_le n⟩

theorem closing (h : RisesTo o k es pushed) (hk : o ≤ k) :
    RisesTo (o + 1) k (.close :: es) pushed := by
  refine ⟨h.height_le, fun n => ?_⟩
  have hd : Place.depthAfter (o + 1 + n) .close = o + n := by
    simp [Place.depthAfter, Event.opens, Nat.add_right_comm]
  rw [levels_cons, hd]
  exact List.forall_mem_cons.2 ⟨Nat.add_le_add_right hk n, h.levels_le n⟩

/-- An event that neither opens nor closes anything. -/
theorem mark {e : Event} (he : e.opens = false ∧ e ≠ .close) (h : RisesTo o k es pushed)
    (hk : o ≤ k) : RisesTo o k (e :: es) pushed := by
  refine ⟨h.height_le, fun n => ?_⟩
  have hd : Place.depthAfter (o + n) e = o + n := by
    simp [Place.depthAfter, he.1, he.2]
  rw [levels_cons, hd]
  exact List.forall_mem_cons.2 ⟨Nat.add_le_add_right hk n, h.levels_le n⟩

end RisesTo

theorem OpensReference.risesTo (h : OpensReference c es pushed) : RisesTo 0 0 es pushed := by
  cases h with
  | ofClass => exact .nil (by simp [Goal.height])
  | typeVariable => exact .nil (by simp [Goal.height])
  | array => exact .mark (by decide) (.nil (by simp [Goal.height])) (Nat.le_refl 0)

theorem OpensType.risesTo (h : OpensType c es pushed) : RisesTo 0 0 es pushed := by
  cases h with
  | base b => exact .mark (by simp [Event.opens]) (.nil (Nat.le_refl 0)) (Nat.le_refl 0)
  | reference hr => exact hr.risesTo

theorem EndsClass.risesTo (h : EndsClass c es pushed) : RisesTo 1 1 es pushed := by
  cases h with
  | close => exact .closing (.nil (Nat.zero_le 1)) (Nat.zero_le 1)
  | inner => exact .nil (by simp [Goal.height])

theorem FollowsName.risesTo (h : FollowsName c es pushed) : RisesTo 1 2 es pushed := by
  cases h with
  | arguments => exact .nil (by simp [Goal.height])
  | ends he => exact he.risesTo.mono (Nat.le_succ 1)

theorem OpensArgument.risesTo (h : OpensArgument c es pushed) : RisesTo 0 2 es pushed := by
  cases h with
  | unbounded => exact .mark (by decide) (.nil (by simp [Goal.height])) (Nat.zero_le 2)
  | wildcard _ => exact .opening rfl (.nil (by simp [Goal.height])) (by omega)
  | exact hr =>
      have ht : 0 + height [.argumentEnd, .moreArguments] ≤ 2 := by simp [Goal.height]
      exact .opening rfl (hr.risesTo.before _ ht) (by omega)

/-- A goal that takes a character rises by one at most. -/
theorem Acts.risesTo (h : Acts goal c es pushed) :
    RisesTo goal.owes (goal.height + 1) es pushed := by
  cases h with
  | formal name =>
      exact .mark (by simp [Event.opens]) (.nil (by simp [Goal.height])) (Nat.zero_le 1)
  | classBound h => exact .mark (by decide) (h.risesTo.mono (Nat.zero_le 1)) (Nat.zero_le 1)
  | interfaceBound => exact .mark (by decide) (.nil (by simp [Goal.height])) (Nat.zero_le 1)
  | superclass => exact .mark (by decide) (.nil (by simp [Goal.height])) (Nat.zero_le 1)
  | interface => exact .mark (by decide) (.nil (by simp [Goal.height])) (Nat.zero_le 1)
  | parameter h =>
      have hp := h.risesTo.before [.moreParameters] (Nat.zero_le 1)
      exact .mark (by decide) hp (Nat.zero_le 1)
  | void =>
      exact .mark (by decide) (.mark (by decide) (.nil (Nat.zero_le 1)) (Nat.zero_le 1))
        (Nat.zero_le 1)
  | result h => exact .mark (by decide) (h.risesTo.mono (Nat.zero_le 1)) (Nat.zero_le 1)
  | exceptionType h =>
      have hp := h.risesTo.before [.exceptions] (Nat.zero_le 1)
      exact .mark (by decide) hp (Nat.zero_le 1)
  | javaType h => exact h.risesTo.mono (Nat.zero_le 1)
  | referenceType h => exact h.risesTo.mono (Nat.zero_le 1)
  | variableEnd _ => exact .mark (by simp [Event.opens]) (.nil (Nat.zero_le 1)) (Nat.zero_le 1)
  | @classEnd name c es pushed hn h =>
      rw [Goal.height, if_neg hn]
      exact .opening rfl h.risesTo (by simp [Goal.owes])
  | innerEnd _ h => exact .closing (.opening rfl h.risesTo (by omega)) (Nat.zero_le 2)
  | afterArguments h => exact h.risesTo.mono (Nat.le_succ 1)
  | firstArgument h => exact h.risesTo
  | moreArguments h => exact h.risesTo
  | _ => exact .nil (by simp [Goal.height])

theorem Skips.risesTo (h : Skips goal c es) : RisesTo goal.owes goal.height es [] := by
  cases h with
  | argumentEnd => exact .closing (.nil (Nat.zero_le 1)) (Nat.zero_le 1)
  | _ => exact .nil (Nat.zero_le _)

/-- A step rises by one at most. -/
theorem Steps.risesTo (h : Steps goals c es left) :
    RisesTo (owed goals) (height goals + 1) es left := by
  induction h with
  | @act goal rest c es pushed ha =>
      refine ha.risesTo.before rest ?_
      rw [height_cons]
      omega
  | @skip goal rest left c es fs hs _ ih =>
      have howed := owed_le_height rest
      refine ⟨?_, fun n d hd => ?_⟩
      · have hle := ih.height_le
        rw [height_cons]
        omega
      · rw [owed_cons, Nat.add_assoc, levels_append hs.level?, List.mem_append] at hd
        rw [height_cons]
        rcases hd with hd | hd
        · have hle := hs.risesTo.levels_le (owed rest + n) d hd
          omega
        · have hle := ih.levels_le n d hd
          omega

/-! ### Scans and walks -/

/-- No event of a list is higher than the goals that complete it. -/
def StaysBelow (goals : List Goal) (es : List Event) : Prop :=
  ∀ d ∈ levels (owed goals) es, d ≤ height goals

theorem RisesTo.staysBelow (h : RisesTo goal.owes goal.height es []) (rest : List Goal) :
    StaysBelow (goal :: rest) es := by
  intro d hd
  have hle := h.levels_le (owed rest) d hd
  have howed := owed_le_height rest
  rw [height_cons]
  omega

theorem StaysBelow.skip (h : StaysBelow rest es) (ho : goal.isOptional = true) :
    StaysBelow (goal :: rest) es := by
  rwa [StaysBelow, owed_cons, height_cons, Goal.owes_of_isOptional ho, Goal.height_of_isOptional ho,
    Nat.zero_add, Nat.zero_add]

theorem StaysBelow.argumentEnd (h : StaysBelow rest es) :
    StaysBelow (.argumentEnd :: rest) (.close :: es) := by
  have hd : Place.depthAfter (1 + owed rest) .close = owed rest := by
    simp [Place.depthAfter, Event.opens]
  have howed := owed_le_height rest
  rw [StaysBelow, owed_cons, Goal.owes, levels_cons, hd, height_cons, Goal.height]
  refine List.forall_mem_cons.2 ⟨by omega, fun d hm => ?_⟩
  have hle := h d hm
  omega

theorem Ends.staysBelow (h : Ends goals es) : StaysBelow goals es := by
  induction h with
  | nil => exact List.forall_mem_nil _
  | skip ho _ ih => exact ih.skip ho
  | argumentEnd _ ih => exact ih.argumentEnd

theorem staysBelow_mark {e : Event} (he : e.opens = false ∧ e ≠ .close) (rest : List Goal)
    (ho : goal.owes = 0) (hh : goal.height = 0) : StaysBelow (goal :: rest) [e] := by
  refine RisesTo.staysBelow ?_ rest
  rw [ho, hh]
  exact .mark he (.nil (Nat.le_refl 0)) (Nat.le_refl 0)

theorem staysBelow_opening {e : Event} (he : e.opens = true) (rest : List Goal)
    (ho : goal.owes = 0) (hh : goal.height = 1) : StaysBelow (goal :: rest) [e] := by
  refine RisesTo.staysBelow ?_ rest
  rw [ho, hh]
  exact .opening he (.nil (Nat.zero_le 1)) (Nat.le_refl 1)

/-- What is complete ahead of a fault is no higher than the goals. -/
theorem Fails.staysBelow (h : Fails goals es) : StaysBelow goals es := by
  induction h with
  | atOnce => exact List.forall_mem_nil _
  | superclass => exact staysBelow_mark (by decide) _ rfl rfl
  | interface => exact staysBelow_mark (by decide) _ rfl rfl
  | parameter => exact staysBelow_mark (by decide) _ rfl rfl
  | result => exact staysBelow_mark (by decide) _ rfl rfl
  | className hn => exact staysBelow_opening rfl _ rfl (if_neg hn)
  | innerName _ =>
      refine RisesTo.staysBelow ?_ _
      exact .closing (.opening rfl (.nil (Nat.zero_le 1)) (Nat.le_refl 1)) (Nat.zero_le 1)
  | firstArgument => exact staysBelow_opening rfl _ rfl rfl
  | moreArguments => exact staysBelow_opening rfl _ rfl rfl
  | skip ho _ ih => exact ih.skip ho
  | argumentEnd _ ih => exact ih.argumentEnd

/-- A scan is no deeper than its goals are high and its text is long. -/
theorem scan_levels_le (goals : List Goal) (offset : Nat) (s : List Char) :
    ∀ d ∈ levels (owed goals) (scan goals offset s).events, d ≤ height goals + s.length := by
  refine scan_induction (motive := fun goals s es =>
    ∀ d ∈ levels (owed goals) es, d ≤ height goals + s.length) ?_ ?_ ?_ goals offset s
  · intro goals es he d hd
    exact he.staysBelow d hd
  · intro goals s es hf d hd
    exact (hf.staysBelow d hd).trans (Nat.le_add_right _ _)
  · intro goals c es left offset s hs ih d hd
    rw [levels_append hs.level?, List.mem_append] at hd
    rw [List.length_cons]
    rcases hd with hd | hd
    · have hle := hs.risesTo.levels_le 0 d hd
      omega
    · have hle := ih d hd
      have hh := hs.risesTo.height_le
      omega

theorem height_goals (kind : Kind) : height kind.goals = 0 := by
  cases kind <;> rfl

/-- Every character of a text takes at least one byte. -/
theorem length_le_utf8ByteSize (s : List Char) : s.length ≤ (String.ofList s).utf8ByteSize := by
  induction s with
  | nil => exact Nat.zero_le _
  | cons c s ih =>
      have hc := c.utf8Size_pos
      rw [String.ofList_cons, String.utf8ByteSize_append, String.utf8ByteSize_singleton,
        List.length_cons]
      omega

/-- A walk is no deeper than its text is long. -/
theorem levels_le_of_walk (kind : Kind) (text : String) :
    ∀ d ∈ levels 0 (walk kind text).events, d ≤ text.utf8ByteSize := by
  intro d hd
  have hle := scan_levels_le kind.goals 0 text.toList d (by rwa [owed_goals])
  have hlength := length_le_utf8ByteSize text.toList
  rw [String.ofList_toList] at hlength
  rw [height_goals, Nat.zero_add] at hle
  exact hle.trans hlength

/-- **Walks are balanced, and validation is the grammar check.**  The places of a walk never refuse
an event, whether the signature is accepted or not, and no place is deeper than the text is long in
bytes.  A walk without an error ends where nothing is open.  So validation accepts a signature if
its walk does, and otherwise reports the error of the walk. -/
theorem walk_balanced (kind : Kind) (text : String) :
    (∀ k, ∃ place, ((walk kind text).events.take k).foldlM (Place.apply text) (.start kind) =
        .ok place ∧ place.depth ≤ text.utf8ByteSize) ∧
      ((walk kind text).error = none → ∃ last,
        (walk kind text).events.foldlM (Place.apply text) (.start kind) = .ok last ∧
          last.depth = 0 ∧ last.finish text = .ok ()) ∧
      (validate kind text = .ok () ↔ (walk kind text).error = none) ∧
      ∀ error, (walk kind text).error = some error → validate kind text = .error error := by
  refine ⟨fun k => ?_, fun h => ?_, validate_eq_ok_iff, fun error h => ?_⟩
  · obtain ⟨n, hl⟩ := exists_level?_of_walk kind text
    obtain ⟨d, hd, hm⟩ := level?_take hl k
    obtain ⟨place, hp, rfl⟩ := foldlM_apply_of_level? text (.start kind) hd
    refine ⟨place, hp, ?_⟩
    rcases hm with hm | hm
    · rw [hm]
      exact Nat.zero_le _
    · exact levels_le_of_walk kind text _ hm
  · obtain ⟨last, hl, hd⟩ := foldlM_apply_of_level? text (.start kind) (level?_of_walk h)
    exact ⟨last, hl, hd, by rw [Place.finish, if_pos hd]⟩
  · rw [validate, Trail.finish, trail_error, h]

end RecordRepair.Signature
