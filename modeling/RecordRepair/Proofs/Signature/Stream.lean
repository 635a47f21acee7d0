import Mathlib.Data.List.TakeDrop
import Mathlib.Data.List.TakeWhile
import RecordRepair.Proofs.Signature.Faults
import RecordRepair.Signature.Tree

/-! # The events of a walk

Facts on the events of every signature, whether it is accepted or not.

* `hasProperName_of_walk`: each name can be told apart from what follows it.
* `formalsFirst_of_walk`: the type parameters stand ahead of everything that ends their list.
* `declaredParameters_eq_ok_iff`: so the declared ones are all that the events name.  They are told
  unless a fault comes before the end of the list (`ListsFormals`).

The first is a property of single goals that every step keeps.  The second needs to know in which
order the goals stand (`Ordered`). -/

namespace RecordRepair.Signature

variable {goals left pushed : List Goal} {es : List Event} {goal : Goal} {c : Char}
  {s : List Char} {kind : Kind} {text : String}

/-! ### Names -/

/-- The name of an event, if it has one, is a name as the grammar has it. -/
def Event.HasProperName : Event → Prop
  | .classType name => isName endsClassName name = true
  | .innerClassType name => isName endsName name = true
  | .typeVariable name => isName endsName name = true
  | .formalParameter name => isName endsName name = true
  | _ => True

/-- No character of a name that is being read ends it. -/
def Goal.HasProperName : Goal → Prop
  | .className name => ∀ c ∈ name.toList, endsClassName c = false
  | .innerName name => ∀ c ∈ name.toList, endsName c = false
  | .variableName name => ∀ c ∈ name.toList, endsName c = false
  | .formalName name => isName endsName name = true
  | _ => True

theorem Goal.hasProperName_of_isFresh (h : goal.isFresh = true) : goal.HasProperName := by
  unfold Goal.isFresh at h
  split at h <;> simp_all [Goal.HasProperName]

theorem Event.hasProperName_of_isMark {e : Event} (h : e.isMark = true) : e.HasProperName := by
  unfold Event.isMark at h
  split at h <;> simp_all [Event.HasProperName]

theorem IsFresh.hasProperName (h : IsFresh es pushed) :
    Kept Goal.HasProperName Event.HasProperName es pushed :=
  h.imp (fun _ => Goal.hasProperName_of_isFresh) fun _ => Event.hasProperName_of_isMark

theorem not_ends_push {ends : Char → Bool} {name : String}
    (hn : ∀ d ∈ name.toList, ends d = false) (hc : ends c = false) :
    ∀ d ∈ (name.push c).toList, ends d = false := by
  intro d hd
  rw [String.toList_push, List.mem_append, List.mem_singleton] at hd
  rcases hd with hd | rfl
  · exact hn d hd
  · exact hc

theorem isName_singleton (h : endsName c = false) :
    isName endsName (String.singleton c) = true := by
  refine isName_iff.2 ⟨?_, ?_⟩
  · intro he
    have := congrArg String.toList he
    simp at this
  · intro d hd
    rw [String.toList_singleton, List.mem_singleton] at hd
    rw [hd, h]

theorem isName_push {name : String} (hn : isName endsName name = true) (h : endsName c = false) :
    isName endsName (name.push c) = true := by
  refine isName_iff.2 ⟨?_, not_ends_push (isName_iff.1 hn).2 h⟩
  intro he
  have := congrArg String.toList he
  simp at this

theorem keeps_hasProperName : Keeps Goal.HasProperName Event.HasProperName where
  close := trivial
  acts := by
    intro goal c es pushed h hg
    cases h with
    | firstFormal he => exact .nil (by simpa [Goal.HasProperName] using isName_singleton he)
    | moreFormals he => exact .nil (by simpa [Goal.HasProperName] using isName_singleton he)
    | formalName he => exact .nil (by simpa [Goal.HasProperName] using isName_push hg he)
    | formal name => exact Kept.event (.nil (by simp [Goal.HasProperName])) hg
    | classBound h => exact h.isFresh.hasProperName.event trivial
    | parameter h =>
        exact (h.isFresh.hasProperName.before (by simp [Goal.HasProperName])).event trivial
    | result h => exact h.isFresh.hasProperName.event trivial
    | exceptionType h =>
        exact (h.isFresh.hasProperName.before (by simp [Goal.HasProperName])).event trivial
    | javaType h => exact h.isFresh.hasProperName
    | referenceType h => exact h.isFresh.hasProperName
    | variableName he => exact .nil (by simpa [Goal.HasProperName] using not_ends_push hg he)
    | variableEnd hn => exact Kept.event (.nil (by simp)) (isName_iff.2 ⟨hn, hg⟩)
    | className he => exact .nil (by simpa [Goal.HasProperName] using not_ends_push hg he)
    | classEnd hn h => exact h.isFresh.hasProperName.event (isName_iff.2 ⟨hn, hg⟩)
    | innerName he => exact .nil (by simpa [Goal.HasProperName] using not_ends_push hg he)
    | @innerEnd name c es pushed hn h =>
        have hi : Event.HasProperName (.innerClassType name) := isName_iff.2 ⟨hn, hg⟩
        exact (h.isFresh.hasProperName.event hi).event trivial
    | afterArguments h => exact (FollowsName.ends h).isFresh.hasProperName
    | firstArgument h => exact h.isFresh.hasProperName
    | moreArguments h => exact h.isFresh.hasProperName
    | _ => simp [Kept, Goal.HasProperName, Event.HasProperName]

theorem kindGoals_hasProperName : ∀ g ∈ kind.goals, g.HasProperName := by
  cases kind <;> simp [Kind.goals, Goal.HasProperName]

theorem Fails.hasProperName (h : Fails goals es) :
    (∀ g ∈ goals, g.HasProperName) → ∀ e ∈ es, e.HasProperName := by
  intro hg
  induction h with
  | className hn =>
      have hc := isName_iff.2 ⟨hn, (List.forall_mem_cons.1 hg).1⟩
      exact List.forall_mem_singleton.2 hc
  | innerName hn =>
      have hi := isName_iff.2 ⟨hn, (List.forall_mem_cons.1 hg).1⟩
      exact List.forall_mem_cons.2 ⟨trivial, List.forall_mem_singleton.2 hi⟩
  | skip _ _ ih => exact ih (List.forall_mem_cons.1 hg).2
  | argumentEnd _ ih =>
      exact List.forall_mem_cons.2 ⟨trivial, ih (List.forall_mem_cons.1 hg).2⟩
  | _ => simp [Event.HasProperName]

/-- Every event has a proper name, whether the signature is accepted or not. -/
theorem hasProperName_of_walk {e : Event} (he : e ∈ (walk kind text).events) : e.HasProperName :=
  scan_forall keeps_hasProperName Fails.hasProperName kind.goals 0 text.toList
    kindGoals_hasProperName e he

/-! ### Type parameters come first -/

/-- Whether a goal, or one that replaces it, names a type parameter. -/
def Goal.declares : Goal → Bool
  | formals => true
  | firstFormal => true
  | moreFormals => true
  | formalName _ => true
  | _ => false

/-- Whether a goal, or one that replaces it, ends the list of type parameters. -/
def Goal.endsFormals : Goal → Bool
  | superclass => true
  | parameters => true
  | moreParameters => true
  | returnType => true
  | _ => false

theorem IsFresh.not_declares (h : IsFresh es pushed) :
    Kept (·.declares = false) (·.formal? = none) es pushed := by
  refine h.imp (fun g hg => ?_) fun e he => ?_
  · cases g <;> first | rfl | cases hg
  · cases e <;> first | rfl | cases he

theorem IsFresh.not_endsFormals (h : IsFresh es pushed) :
    Kept (·.endsFormals = false) (·.endsFormals = false) es pushed := by
  refine h.imp (fun g hg => ?_) fun e he => ?_
  · cases g <;> first | rfl | cases hg
  · cases e <;> first | rfl | cases he

theorem keeps_not_declares : Keeps (·.declares = false) (·.formal? = none) where
  close := rfl
  acts := by
    intro goal c es pushed h hg
    cases h with
    | classBound h => exact h.isFresh.not_declares.event rfl
    | parameter h => exact (h.isFresh.not_declares.before (by simp [Goal.declares])).event rfl
    | result h => exact h.isFresh.not_declares.event rfl
    | exceptionType h => exact (h.isFresh.not_declares.before (by simp [Goal.declares])).event rfl
    | javaType h => exact h.isFresh.not_declares
    | referenceType h => exact h.isFresh.not_declares
    | classEnd _ h => exact h.isFresh.not_declares.event rfl
    | innerEnd _ h => exact (h.isFresh.not_declares.event rfl).event rfl
    | afterArguments h => exact (FollowsName.ends h).isFresh.not_declares
    | firstArgument h => exact h.isFresh.not_declares
    | moreArguments h => exact h.isFresh.not_declares
    | _ => simp_all [Kept, Goal.declares, Event.formal?]

theorem keeps_not_endsFormals : Keeps (·.endsFormals = false) (·.endsFormals = false) where
  close := rfl
  acts := by
    intro goal c es pushed h hg
    cases h with
    | classBound h => exact h.isFresh.not_endsFormals.event rfl
    | parameter _ => cases hg
    | result _ => cases hg
    | exceptionType h =>
        exact (h.isFresh.not_endsFormals.before (by simp [Goal.endsFormals])).event rfl
    | javaType h => exact h.isFresh.not_endsFormals
    | referenceType h => exact h.isFresh.not_endsFormals
    | classEnd _ h => exact h.isFresh.not_endsFormals.event rfl
    | innerEnd _ h => exact (h.isFresh.not_endsFormals.event rfl).event rfl
    | afterArguments h => exact (FollowsName.ends h).isFresh.not_endsFormals
    | firstArgument h => exact h.isFresh.not_endsFormals
    | moreArguments h => exact h.isFresh.not_endsFormals
    | _ => simp_all [Kept, Goal.endsFormals, Event.endsFormals]

/-- Below a goal that ends the list of type parameters none names a type parameter. -/
def Ordered (goals : List Goal) : Prop :=
  goals.Pairwise fun a b => a.endsFormals = true → b.declares = false

/-- Behind an event that ends the list of type parameters none names a type parameter. -/
def FormalsFirst (events : List Event) : Prop :=
  events.Pairwise fun a b => a.endsFormals = true → b.formal? = none

theorem not_declares_of_endsFormals (h : goal.endsFormals = true) : goal.declares = false := by
  cases goal <;> first | rfl | cases h

theorem formal?_of_endsFormals {e : Event} (h : e.endsFormals = true) : e.formal? = none := by
  cases e <;> first | rfl | cases h

theorem ordered_of_not_declares (h : ∀ g ∈ goals, g.declares = false) : Ordered goals :=
  List.pairwise_of_forall_mem_list fun _ _ b hb _ => h b hb

theorem formalsFirst_of_no_formal (h : ∀ e ∈ es, e.formal? = none) : FormalsFirst es :=
  List.pairwise_of_forall_mem_list fun _ _ b hb _ => h b hb

/-- A step leaves the goals in order.  If it ends the list of type parameters, no goal that names
one is left. -/
theorem Steps.ordered (h : Steps goals c es left) (ho : Ordered goals) :
    Ordered left ∧ FormalsFirst es ∧
      ((∃ e ∈ es, e.endsFormals = true) → ∀ g ∈ left, g.declares = false) := by
  induction h with
  | @act goal rest c es pushed ha =>
      obtain ⟨hb, hrest⟩ := List.pairwise_cons.1 ho
      by_cases hg : goal.endsFormals = true
      · -- nothing names a type parameter any more
        obtain ⟨hp, he⟩ := keeps_not_declares.acts ha (not_declares_of_endsFormals hg)
        have hl : ∀ g ∈ pushed ++ rest, g.declares = false :=
          List.forall_mem_append.2 ⟨hp, fun b hm => hb b hm hg⟩
        exact ⟨ordered_of_not_declares hl, formalsFirst_of_no_formal he, fun _ => hl⟩
      · -- the list of type parameters does not end here
        obtain ⟨hp, he⟩ := keeps_not_endsFormals.acts ha (Bool.eq_false_iff.2 hg)
        refine ⟨List.pairwise_append.2 ⟨?_, hrest, ?_⟩, ?_, ?_⟩
        · refine List.pairwise_of_forall_mem_list fun a ha' b _ hae => ?_
          rw [hp a ha'] at hae
          cases hae
        · intro a hm b _ hae
          rw [hp a hm] at hae
          cases hae
        · refine List.pairwise_of_forall_mem_list fun a ha' b _ hae => ?_
          rw [he a ha'] at hae
          cases hae
        · rintro ⟨e, hm, hee⟩
          rw [he e hm] at hee
          cases hee
  | skip hs _ ih =>
      obtain ⟨hl, he, hd⟩ := ih (List.pairwise_cons.1 ho).2
      have hclose : ∀ e, e = Event.close → e.endsFormals = true → False := by
        rintro _ rfl hee
        cases hee
      refine ⟨hl, List.pairwise_append.2 ⟨?_, he, ?_⟩, ?_⟩
      · exact List.pairwise_of_forall_mem_list fun a ha b _ hae =>
          (hclose a (hs.eq_close ha) hae).elim
      · exact fun a ha b _ hae => (hclose a (hs.eq_close ha) hae).elim
      · rintro ⟨e, hm, hee⟩
        rcases List.mem_append.1 hm with hm | hm
        · exact (hclose e (hs.eq_close hm) hee).elim
        · exact hd ⟨e, hm, hee⟩

theorem Fails.not_formal (h : Fails goals es) : ∀ e ∈ es, e.formal? = none := by
  induction h with
  | skip _ _ ih => exact ih
  | argumentEnd _ ih => exact List.forall_mem_cons.2 ⟨rfl, ih⟩
  | _ => simp [Event.formal?]

theorem scan_formalsFirst (goals : List Goal) (offset : Nat) (s : List Char) :
    Ordered goals → FormalsFirst (scan goals offset s).events := by
  refine scan_induction (motive := fun goals _ es => Ordered goals → FormalsFirst es)
    ?_ ?_ ?_ goals offset s
  · intro goals es he _
    refine formalsFirst_of_no_formal fun e hm => ?_
    rw [he.eq_close hm]
    rfl
  · intro goals s es hf _
    exact formalsFirst_of_no_formal hf.not_formal
  · intro goals c es left offset s hs ih ho
    obtain ⟨hl, he, hd⟩ := hs.ordered ho
    refine List.pairwise_append.2 ⟨he, ih hl, fun a ha b hb hae => ?_⟩
    exact scan_forall keeps_not_declares (fun hf _ => hf.not_formal) left offset s
      (hd ⟨a, ha, hae⟩) b hb

theorem formalsFirst_of_walk (kind : Kind) (text : String) :
    FormalsFirst (walk kind text).events := by
  refine scan_formalsFirst kind.goals 0 text.toList ?_
  cases kind <;> simp [Ordered, Kind.goals, Goal.endsFormals, Goal.declares]

/-- A field signature names no type parameter. -/
theorem filterMap_formal?_fieldKind (text : String) :
    (walk .fieldKind text).events.filterMap Event.formal? = [] := by
  rw [List.filterMap_eq_nil_iff]
  exact scan_forall keeps_not_declares (fun hf _ => hf.not_formal) Kind.fieldKind.goals 0
    text.toList (by simp [Kind.goals, Goal.declares])

/-- The type parameters are all named ahead of the first event behind their list. -/
theorem FormalsFirst.filterMap_takeWhile (h : FormalsFirst es) :
    (es.takeWhile fun e => !e.endsFormals).filterMap Event.formal? =
      es.filterMap Event.formal? := by
  induction es with
  | nil => rfl
  | cons e es ih =>
      obtain ⟨he, hes⟩ := List.pairwise_cons.1 h
      cases hee : e.endsFormals with
      | false =>
          rw [List.takeWhile_cons_of_pos (by simp [hee]), List.filterMap_cons, List.filterMap_cons,
            ih hes]
      | true =>
          have hnone : (e :: es).filterMap Event.formal? = [] := by
            rw [List.filterMap_eq_nil_iff]
            exact List.forall_mem_cons.2 ⟨formal?_of_endsFormals hee, fun b hb => he b hb hee⟩
          rw [List.takeWhile_cons_of_neg (by simp [hee]), hnone, List.filterMap_nil]

/-- No fault of a signature comes before the end of its type parameters. -/
def ListsFormals (kind : Kind) (text : String) : Prop :=
  kind = .fieldKind ∨ (walk kind text).error = none ∨
    ∃ e ∈ (walk kind text).events, e.endsFormals = true

instance : Decidable (ListsFormals kind text) := inferInstanceAs (Decidable (_ ∨ _ ∨ _))

/-- **The declared type parameters are those that the events name.** -/
theorem declaredParameters_of_listsFormals (h : ListsFormals kind text) :
    declaredParameters kind text = .ok ((walk kind text).events.filterMap Event.formal?) := by
  have hw : kind ≠ .fieldKind → (walk kind text).declaredParameters =
      .ok ((walk kind text).events.filterMap Event.formal?) := by
    intro hk
    rw [Walk.declaredParameters, List.span_eq_takeWhile_dropWhile,
      (formalsFirst_of_walk kind text).filterMap_takeWhile]
    split
    · next error hdrop herror =>
        rcases h with h | h | ⟨e, he, hends⟩
        · exact absurd h hk
        · rw [h] at herror
          cases herror
        · have hall := List.dropWhile_eq_nil_iff.1 hdrop e he
          rw [hends] at hall
          cases hall
    · rfl
  cases kind with
  | classKind => exact hw (by decide)
  | methodKind => exact hw (by decide)
  | fieldKind => rw [filterMap_formal?_fieldKind, declaredParameters]

theorem declaredParameters_of_walk (h : (walk kind text).error = none) :
    declaredParameters kind text = .ok ((walk kind text).events.filterMap Event.formal?) :=
  declaredParameters_of_listsFormals (Or.inr (Or.inl h))

/-- A fault before the end of the type parameters leaves open what they are. -/
theorem exists_error_of_not_listsFormals (h : ¬ ListsFormals kind text) :
    ∃ error, declaredParameters kind text = .error error := by
  rw [ListsFormals, not_or, not_or] at h
  obtain ⟨hk, hw, hall⟩ := h
  have hdrop : (walk kind text).events.dropWhile (fun e => !e.endsFormals) = [] := by
    refine List.dropWhile_eq_nil_iff.2 fun e he => ?_
    rw [Bool.not_eq_true', Bool.eq_false_iff]
    exact fun hends => hall ⟨e, he, hends⟩
  obtain ⟨error, herror⟩ := Option.ne_none_iff_exists'.1 hw
  have hfail : (walk kind text).declaredParameters = .error error := by
    rw [Walk.declaredParameters, List.span_eq_takeWhile_dropWhile, hdrop, herror]
  cases kind with
  | classKind => exact ⟨error, hfail⟩
  | methodKind => exact ⟨error, hfail⟩
  | fieldKind => exact absurd rfl hk

/-- If the type parameters cannot be listed, it is for the error of the walk. -/
theorem error_of_declaredParameters {error : FormatError}
    (h : declaredParameters kind text = .error error) : (walk kind text).error = some error := by
  have hw : (walk kind text).declaredParameters = .error error →
      (walk kind text).error = some error := by
    intro hd
    rw [Walk.declaredParameters] at hd
    split at hd
    · next first _ herror =>
        obtain rfl := Except.error.inj hd
        exact herror
    · cases hd
  cases kind with
  | classKind => exact hw h
  | methodKind => exact hw h
  | fieldKind => cases h

/-- The type parameters of a signature can be listed exactly if no fault comes before their end, and
they are what the events name then. -/
theorem declaredParameters_eq_ok_iff {declared : List String} :
    declaredParameters kind text = .ok declared ↔
      ListsFormals kind text ∧ declared = (walk kind text).events.filterMap Event.formal? := by
  constructor
  · intro hd
    by_cases h : ListsFormals kind text
    · rw [declaredParameters_of_listsFormals h] at hd
      exact ⟨h, (Except.ok.inj hd).symm⟩
    · obtain ⟨error, he⟩ := exists_error_of_not_listsFormals h
      rw [he] at hd
      cases hd
  · rintro ⟨h, rfl⟩
    exact declaredParameters_of_listsFormals h

/-- The type parameters that a signature declares, as far as they can be told. -/
def declaredNames (kind : Kind) (text : String) : List String :=
  match declaredParameters kind text with
  | .ok declared => declared
  | .error _ => []

theorem declaredNames_of_declaredParameters {declared : List String}
    (h : declaredParameters kind text = .ok declared) : declaredNames kind text = declared := by
  rw [declaredNames, h]

/-! ### Type parameters and type variables of a signature -/

theorem Event.reference?_eq_some_iff {e : Event} {n : String} :
    e.reference? = some n ↔ e = .typeVariable n := by
  cases e <;> simp [Event.reference?]

theorem Event.formal?_eq_some_iff {e : Event} {n : String} :
    e.formal? = some n ↔ e = .formalParameter n := by
  cases e <;> simp [Event.formal?]

/-- A signature declares a type parameter. -/
def Declares (kind : Kind) (text name : String) : Prop :=
  ∃ declared, declaredParameters kind text = .ok declared ∧ name ∈ declared

theorem mem_declaredNames_iff {n : String} :
    n ∈ declaredNames kind text ↔ Declares kind text n := by
  rw [declaredNames, Declares]
  cases declaredParameters kind text <;> simp

/-- A signature refers to a type variable that it does not declare. -/
def IsFree (kind : Kind) (text name : String) : Prop :=
  .typeVariable name ∈ (walk kind text).events ∧ .formalParameter name ∉ (walk kind text).events

theorem mem_declaredParameters_iff {declared : List String} {n : String}
    (hd : declaredParameters kind text = .ok declared) :
    n ∈ declared ↔ .formalParameter n ∈ (walk kind text).events := by
  rw [(declaredParameters_eq_ok_iff.1 hd).2]
  simp [List.mem_filterMap, Event.formal?_eq_some_iff]

theorem declares_iff {n : String} (h : (walk kind text).error = none) :
    Declares kind text n ↔ .formalParameter n ∈ (walk kind text).events := by
  have hd := declaredParameters_of_walk h
  rw [← mem_declaredParameters_iff hd]
  constructor
  · rintro ⟨declared, hd', hm⟩
    obtain rfl := Except.ok.inj (hd.symm.trans hd')
    exact hm
  · exact fun hm => ⟨_, hd, hm⟩

end RecordRepair.Signature
