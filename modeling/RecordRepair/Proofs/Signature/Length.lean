import RecordRepair.Proofs.Signature.Depths

/-! # How many events a text has

A walk has at most two events for each character of its text and one besides, and an error may
follow them.  A single character may complete more than two events: the second `[` in `La<[I[I>;`
ends one argument, begins another and stands for a dimension.  So the goals are charged for what they
complete without a character of their own, and a component type, which takes a character for one
event, gives one back.

* `charge goals`: how many events the goals complete beyond two for each character.
* `Costs k es pushed`: some events and the charge of the goals behind them come to `k` at most.
* `Acts.costs`: a goal that takes a character costs two and its own charge.
* `length_scan_le`: so the events of a scan are at most two for each character and one besides.
* `length_items_le`: with an error at its end, a walk has at most two items more than twice the
  bytes of its text. -/

namespace RecordRepair.Signature

variable {goals rest left pushed : List Goal} {es : List Event} {goal : Goal} {c : Char}
  {s : List Char} {kind : Kind} {text : String} {k m : Int}

/-! ### Charges -/

/-- How many events a goal completes beyond two for each character that it takes. -/
def Goal.charge : Goal → Int
  | argumentEnd => 1
  | innerName _ => 1
  | javaType => -1
  | _ => 0

/-- How many events some goals complete beyond two for each character. -/
def charge : List Goal → Int
  | [] => 0
  | goal :: goals => goal.charge + charge goals

@[simp] theorem charge_nil : charge [] = 0 := rfl

@[simp] theorem charge_cons : charge (goal :: goals) = goal.charge + charge goals := rfl

@[simp] theorem charge_append : charge (goals ++ rest) = charge goals + charge rest := by
  induction goals with
  | nil => simp
  | cons goal goals ih => simp [ih, Int.add_assoc]

theorem charge_nonneg (h : ∀ g ∈ goals, 0 ≤ g.charge) : 0 ≤ charge goals := by
  induction goals with
  | nil => exact Int.le_refl 0
  | cons goal goals ih =>
      obtain ⟨hg, hgoals⟩ := List.forall_mem_cons.1 h
      have := ih hgoals
      rw [charge_cons]
      omega

theorem Goal.neg_one_le_charge (goal : Goal) : -1 ≤ goal.charge := by
  cases goal <;> simp [charge]

theorem Goal.charge_of_isOptional (h : goal.isOptional = true) : goal.charge = 0 := by
  cases goal <;> first | rfl | cases h

/-- No goal below the next one gives anything back. -/
def ChargesBelow (goals : List Goal) : Prop := ∀ g ∈ goals.tail, 0 ≤ g.charge

theorem ChargesBelow.of_cons (h : ChargesBelow (goal :: rest)) : ChargesBelow rest :=
  fun g hg => h g (List.mem_of_mem_tail hg)

theorem ChargesBelow.neg_one_le (h : ChargesBelow goals) : -1 ≤ charge goals := by
  cases goals with
  | nil => decide
  | cons goal rest =>
      have hg := goal.neg_one_le_charge
      have hrest : 0 ≤ charge rest := charge_nonneg h
      rw [charge_cons]
      omega

/-! ### What a character costs -/

/-- Some events and the charge of the goals left behind them come to `k` at most, and only the next
of these goals may give something back. -/
structure Costs (k : Int) (es : List Event) (pushed : List Goal) : Prop where
  le : es.length + charge pushed ≤ k
  below : ChargesBelow pushed

namespace Costs

theorem mono (h : Costs k es pushed) (hk : k ≤ m) : Costs m es pushed :=
  ⟨Int.le_trans h.le hk, h.below⟩

theorem event (h : Costs k es pushed) (e : Event) (hk : k + 1 ≤ m) : Costs m (e :: es) pushed := by
  refine ⟨?_, h.below⟩
  have hle := h.le
  rw [List.length_cons]
  omega

theorem before (h : Costs k es pushed) (hrest : ∀ g ∈ rest, 0 ≤ g.charge)
    (hk : k + charge rest ≤ m) : Costs m es (pushed ++ rest) := by
  refine ⟨?_, ?_⟩
  · have hle := h.le
    rw [charge_append]
    omega
  · cases pushed with
    | nil => exact fun g hg => hrest g (List.mem_of_mem_tail hg)
    | cons goal pushed => exact List.forall_mem_append.2 ⟨h.below, hrest⟩

end Costs

theorem OpensReference.costs (h : OpensReference c es pushed) : Costs 0 es pushed := by
  cases h <;> exact ⟨by simp [Goal.charge], by simp [ChargesBelow]⟩

theorem OpensType.costs (h : OpensType c es pushed) : Costs 1 es pushed := by
  cases h with
  | base b => exact ⟨by simp, by simp [ChargesBelow]⟩
  | reference hr => exact hr.costs.mono (by decide)

theorem EndsClass.costs (h : EndsClass c es pushed) : Costs 1 es pushed := by
  cases h <;> exact ⟨by simp [Goal.charge], by simp [ChargesBelow]⟩

theorem FollowsName.costs (h : FollowsName c es pushed) : Costs 1 es pushed := by
  cases h with
  | arguments => exact ⟨by simp [Goal.charge], by simp [ChargesBelow, Goal.charge]⟩
  | ends he => exact he.costs

theorem OpensArgument.costs (h : OpensArgument c es pushed) : Costs 2 es pushed := by
  cases h with
  | unbounded => exact ⟨by simp [Goal.charge], by simp [ChargesBelow]⟩
  | wildcard _ => exact ⟨by simp [Goal.charge], by simp [ChargesBelow, Goal.charge]⟩
  | exact hr =>
      have hb : Costs 1 _ (_ ++ [.argumentEnd, .moreArguments]) :=
        hr.costs.before (by simp [Goal.charge]) (by simp [Goal.charge])
      exact hb.event _ (by decide)

/-- **A goal that takes a character costs two and its own charge.** -/
theorem Acts.costs (h : Acts goal c es pushed) : Costs (2 + goal.charge) es pushed := by
  cases h with
  | classBound h => exact h.costs.event _ (by decide)
  | parameter h =>
      have hb : Costs 1 _ (_ ++ [.moreParameters]) :=
        h.costs.before (by simp [Goal.charge]) (by simp [Goal.charge])
      exact hb.event _ (by decide)
  | result h => exact h.costs.event _ (by decide)
  | exceptionType h _ =>
      have hb : Costs 0 _ (_ ++ [.exceptions]) :=
        h.costs.before (by simp [Goal.charge]) (by simp [Goal.charge])
      exact hb.event _ (by decide)
  | javaType h => exact h.costs.mono (by decide)
  | referenceType h => exact h.costs.mono (by decide)
  | classEnd _ h => exact h.costs.event _ (by simp [Goal.charge])
  | innerEnd _ h => exact (h.costs.event _ (Int.le_refl _)).event _ (by simp [Goal.charge])
  | afterArguments h => exact h.costs.mono (by decide)
  | firstArgument h => exact h.costs.mono (by decide)
  | moreArguments h => exact h.costs.mono (by decide)
  | _ => exact ⟨by simp [Goal.charge], by simp [ChargesBelow, Goal.charge]⟩

theorem Skips.length_le (h : Skips goal c es) : (es.length : Int) ≤ goal.charge := by
  cases h <;> simp [Goal.charge]

theorem Steps.costs (h : Steps goals c es left) (hb : ChargesBelow goals) :
    Costs (2 + charge goals) es left := by
  induction h with
  | @act goal rest c es pushed ha =>
      refine ha.costs.before hb ?_
      rw [charge_cons]
      omega
  | @skip goal rest left c es fs hs _ ih =>
      have hrest := ih hb.of_cons
      refine ⟨?_, hrest.below⟩
      have hes := hs.length_le
      have hle := hrest.le
      rw [List.length_append, charge_cons]
      omega

/-! ### What the end of a scan costs -/

theorem Ends.length_le (h : Ends goals es) : (es.length : Int) ≤ charge goals := by
  induction h with
  | nil => exact Int.le_refl 0
  | skip ho _ ih => rwa [charge_cons, Goal.charge_of_isOptional ho, Int.zero_add]
  | argumentEnd _ ih =>
      rw [List.length_cons, charge_cons, Goal.charge]
      omega

/-- Ahead of a fault, one event more may be complete than the goals are charged for. -/
theorem Fails.length_le (h : Fails goals es) (hb : ChargesBelow goals) :
    (es.length : Int) ≤ 1 + charge goals := by
  induction h with
  | @atOnce goals =>
      have := hb.neg_one_le
      rw [List.length_nil]
      omega
  | skip ho _ ih =>
      rw [charge_cons, Goal.charge_of_isOptional ho, Int.zero_add]
      exact ih hb.of_cons
  | argumentEnd _ ih =>
      have := ih hb.of_cons
      rw [List.length_cons, charge_cons, Goal.charge]
      omega
  | _ =>
      have := charge_nonneg hb
      simp only [List.tail_cons] at this
      simp [Goal.charge]
      omega

/-! ### Scans and walks -/

/-- The events of a scan are at most two for each character, what the goals are charged for, and one
besides. -/
theorem length_scan_le (goals : List Goal) (offset : Nat) (s : List Char) :
    ChargesBelow goals → ((scan goals offset s).events.length : Int) ≤
      2 * s.length + 1 + charge goals := by
  refine scan_induction (motive := fun goals s es =>
    ChargesBelow goals → (es.length : Int) ≤ 2 * s.length + 1 + charge goals) ?_ ?_ ?_
    goals offset s
  · intro goals es he _
    have := he.length_le
    rw [List.length_nil]
    omega
  · intro goals s es hf hb
    have := hf.length_le hb
    omega
  · intro goals c es left offset s hs ih hb
    have hc := hs.costs hb
    have hle := hc.le
    have hrest := ih hc.below
    rw [List.length_append, List.length_cons]
    omega

theorem charge_goals (kind : Kind) : charge kind.goals = 0 ∧ ChargesBelow kind.goals := by
  cases kind <;> simp [Kind.goals, Goal.charge, ChargesBelow]

theorem length_events_le (kind : Kind) (text : String) :
    (walk kind text).events.length ≤ 2 * text.utf8ByteSize + 1 := by
  obtain ⟨hzero, hbelow⟩ := charge_goals kind
  have hle := length_scan_le kind.goals 0 text.toList hbelow
  have hlength := length_le_utf8ByteSize text.toList
  rw [String.ofList_toList] at hlength
  rw [hzero] at hle
  have he : (walk kind text).events.length = (scan kind.goals 0 text.toList).events.length := rfl
  omega

/-- **A walk is at most twice as long as its text**, and two items longer. -/
theorem length_items_le (kind : Kind) (text : String) :
    (walk kind text).items.length ≤ 2 * text.utf8ByteSize + 2 := by
  have hle := length_events_le kind text
  have herror : (walk kind text).error.toList.length ≤ 1 := by
    cases (walk kind text).error <;> simp
  rw [Walk.items, List.length_append, List.length_map, List.length_map]
  omega

-- the empty class signature announces its superclass before the error
example : (walk .classKind "").items.length = 2 * "".utf8ByteSize + 2 := by decide

end RecordRepair.Signature
