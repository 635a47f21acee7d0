import RecordRepair.Proofs.Signature.Stream
import RecordRepair.Proofs.Signature.TreeReading

/-! # Names spliced into a class signature

The signature of a record is written from the names of its type variables, of their bounds and of
its interfaces, and a name may hold characters that mean something in a signature: the bound `a<*>`
turns into a class with a type argument.  But no name of a bound has a `;`, and that is enough to
keep the type parameters of an accepted signature apart.

* `Within k g`: the goals `g` are what is left of a class type above the goals `k`.
* `Within.step`: a character other than `;` leaves the reader within the class type, and a `;` takes
  it out, or else to the end of a type argument.  There the reading is bound to fail, since what
  stands behind a spliced name is the name of a type parameter and a `:`, or `>L`, or another
  spliced name.
* `completes_formals`: an accepted list of type parameters declares the spliced names, in order, and
  refers to none.
* `completes_interfaces_of_raw` is the same for interfaces. -/

namespace RecordRepair.Signature

variable {k g left pushed : List Goal} {es fs : List Event} {c : Char} {s t : List Char}

/-! ### Within a class type -/

/-- The goals within a type argument, at its end. -/
def inArgument (k : List Goal) : List Goal := .argumentEnd :: .moreArguments :: .classEnd :: k

/-- The goals above `k` are those of a class type that has not ended. -/
inductive Within : List Goal → List Goal → Prop
  | className (name : String) {k : List Goal} : Within k (.className name :: k)
  | innerName (name : String) {k : List Goal} : Within k (.innerName name :: k)
  | classEnd {k : List Goal} : Within k (.classEnd :: k)
  | firstArgument {k : List Goal} : Within k (.firstArgument :: .classEnd :: k)
  | moreArguments {k : List Goal} : Within k (.moreArguments :: .classEnd :: k)
  | argumentEnd {k : List Goal} : Within k (inArgument k)
  | javaType {k : List Goal} : Within k (.javaType :: inArgument k)
  | referenceType {k : List Goal} : Within k (.referenceType :: inArgument k)
  | variableName (name : String) {k : List Goal} : Within k (.variableName name :: inArgument k)
  | nested {k g : List Goal} : Within (inArgument k) g → Within k g

/-- Events that name the given type parameters, refer to no type variable and do not end the list of
type parameters. -/
structure DeclaresOnly (names : List String) (es : List Event) : Prop where
  formals : es.filterMap Event.formal? = names
  references : ∀ e ∈ es, e.reference? = none
  before : ∀ e ∈ es, e.endsFormals = false

theorem DeclaresOnly.append {names others : List String} (h : DeclaresOnly names es)
    (h' : DeclaresOnly others fs) : DeclaresOnly (names ++ others) (es ++ fs) where
  formals := by rw [List.filterMap_append, h.formals, h'.formals]
  references := List.forall_mem_append.2 ⟨h.references, h'.references⟩
  before := List.forall_mem_append.2 ⟨h.before, h'.before⟩

theorem DeclaresOnly.nil : DeclaresOnly [] [] :=
  ⟨rfl, List.forall_mem_nil _, List.forall_mem_nil _⟩

theorem DeclaresOnly.cons {e : Event} {names : List String} (h : DeclaresOnly names es)
    (hf : e.formal? = none) (hr : e.reference? = none) (he : e.endsFormals = false) :
    DeclaresOnly names (e :: es) where
  formals := by rw [List.filterMap_cons_none hf, h.formals]
  references := List.forall_mem_cons.2 ⟨hr, h.references⟩
  before := List.forall_mem_cons.2 ⟨he, h.before⟩

theorem DeclaresOnly.of_isMark (h : ∀ e ∈ es, e.isMark = true) : DeclaresOnly [] es := by
  induction es with
  | nil => exact .nil
  | cons e es ih =>
      obtain ⟨he, hes⟩ := List.forall_mem_cons.1 h
      refine (ih hes).cons ?_ ?_ ?_
      all_goals cases e <;> first | rfl | cases he

/-- A character other than `;` leads on within a class type.  A `;` ends it, or else leads to the
end of some type argument. -/
def Carries (k : List Goal) (c : Char) (es : List Event) (left : List Goal) : Prop :=
  (c ≠ ';' ∧ c ≠ ':' ∧ Within k left ∧ DeclaresOnly [] es) ∨
    (c = ';' ∧ left = k ∧ DeclaresOnly [] es) ∨ (c = ';' ∧ ∃ k', left = inArgument k')

theorem OpensReference.within (h : OpensReference c es pushed) :
    c ≠ ';' ∧ c ≠ ':' ∧ Within k (pushed ++ inArgument k) := by
  cases h with
  | ofClass => exact ⟨by decide, by decide, .nested (.className "")⟩
  | typeVariable => exact ⟨by decide, by decide, .variableName ""⟩
  | array => exact ⟨by decide, by decide, .javaType⟩

theorem OpensType.within (h : OpensType c es pushed) :
    c ≠ ';' ∧ c ≠ ':' ∧ Within k (pushed ++ inArgument k) := by
  cases h with
  | base b => exact ⟨by cases b <;> decide, by cases b <;> decide, .argumentEnd⟩
  | reference hr => exact hr.within

theorem OpensArgument.within (h : OpensArgument c es pushed) :
    c ≠ ';' ∧ c ≠ ':' ∧ Within k (pushed ++ .classEnd :: k) := by
  cases h with
  | unbounded => exact ⟨by decide, by decide, .moreArguments⟩
  | @wildcard w c hw =>
      refine ⟨?_, ?_, .referenceType⟩ <;> rintro rfl <;> cases w <;> cases hw
  | @exact c es pushed hr =>
      have := hr.within (k := k)
      simpa [inArgument] using this

theorem FollowsName.carries (h : FollowsName c es pushed) : Carries k c es (pushed ++ k) := by
  have hd := DeclaresOnly.of_isMark h.isFresh.2
  cases h with
  | arguments => exact Or.inl ⟨by decide, by decide, .firstArgument, hd⟩
  | ends he =>
      cases he with
      | close => exact Or.inr (Or.inl ⟨rfl, rfl, hd⟩)
      | inner => exact Or.inl ⟨by decide, by decide, .innerName "", hd⟩

theorem Carries.event {e : Event} (h : Carries k c es left) (hf : e.formal? = none)
    (hr : e.reference? = none) (he : e.endsFormals = false) : Carries k c (e :: es) left := by
  rcases h with ⟨hc, hc', hw, hd⟩ | ⟨hc, hl, hd⟩ | h
  · exact Or.inl ⟨hc, hc', hw, hd.cons hf hr he⟩
  · exact Or.inr (Or.inl ⟨hc, hl, hd.cons hf hr he⟩)
  · exact Or.inr (Or.inr h)

/-- A character that begins a type or a type argument leads on within a class type. -/
theorem carries_of_isFresh (h : c ≠ ';' ∧ c ≠ ':' ∧ Within k left) (hf : IsFresh es pushed) :
    Carries k c es left := by
  obtain ⟨hc, hc', hw⟩ := h
  exact Or.inl ⟨hc, hc', hw, .of_isMark hf.2⟩

/-- A character of a name leads on within a class type. -/
theorem carries_of_name (he : endsClassName c = false) (hw : Within k left) :
    Carries k c [] left := by
  have hc : c ≠ ';' := by
    rintro rfl
    cases he
  have hc' : c ≠ ':' := by
    rintro rfl
    cases he
  exact Or.inl ⟨hc, hc', hw, .nil⟩

theorem carries_moreArguments (h : Steps (.moreArguments :: .classEnd :: k) c es left) :
    Carries k c es left := by
  cases h with
  | act ha =>
      cases ha with
      | moreArguments ho => exact carries_of_isFresh ho.within ho.isFresh
      | closeArguments => exact Or.inl ⟨by decide, by decide, .classEnd, .nil⟩
  | skip hs _ => cases hs

theorem Within.step (h : Within k g) (hs : Steps g c es left) : Carries k c es left := by
  induction h with
  | className name =>
      cases hs with
      | act ha =>
          cases ha with
          | className he => exact carries_of_name he (.className _)
          | classEnd _ hf => exact hf.carries.event rfl rfl rfl
      | skip hs _ => cases hs
  | innerName name =>
      cases hs with
      | act ha =>
          cases ha with
          | innerName he => exact carries_of_name (Bool.or_eq_false_iff.1 he).1 (.innerName _)
          | innerEnd _ hf => exact (hf.carries.event rfl rfl rfl).event rfl rfl rfl
      | skip hs _ => cases hs
  | classEnd =>
      cases hs with
      | act ha =>
          cases ha with
          | afterArguments he => exact (FollowsName.ends he).carries
      | skip hs _ => cases hs
  | firstArgument =>
      cases hs with
      | act ha =>
          cases ha with
          | firstArgument ho => exact carries_of_isFresh ho.within ho.isFresh
      | skip hs _ => cases hs
  | moreArguments => exact carries_moreArguments hs
  | argumentEnd =>
      cases hs with
      | act ha => cases ha
      | skip hs hn =>
          cases hs with
          | argumentEnd => exact (carries_moreArguments hn).event rfl rfl rfl
  | javaType =>
      cases hs with
      | act ha =>
          cases ha with
          | javaType ho => exact carries_of_isFresh ho.within ho.isFresh
      | skip hs _ => cases hs
  | referenceType =>
      cases hs with
      | act ha =>
          cases ha with
          | referenceType ho => exact carries_of_isFresh ho.within ho.isFresh
      | skip hs _ => cases hs
  | variableName name =>
      cases hs with
      | act ha =>
          cases ha with
          | variableName he =>
              exact carries_of_name (Bool.or_eq_false_iff.1 he).1 (.variableName _)
          | variableEnd _ => exact Or.inr (Or.inr ⟨rfl, _, rfl⟩)
      | skip hs _ => cases hs
  | nested _ ih =>
      rcases ih hs with ⟨hc, hc', hw, hd⟩ | ⟨hc, hl, -⟩ | h
      · exact Or.inl ⟨hc, hc', .nested hw, hd⟩
      · exact Or.inr (Or.inr ⟨hc, _, hl⟩)
      · exact Or.inr (Or.inr h)

theorem Within.not_ends (h : Within k g) : ¬ Ends g es := by
  intro he
  induction h generalizing es with
  | argumentEnd =>
      cases he with
      | skip ho _ => cases ho
      | argumentEnd he =>
          cases he with
          | skip ho _ => cases ho
  | nested _ ih => exact ih he
  | _ =>
      cases he with
      | skip ho _ => cases ho

/-! ### Reading on within a class type -/

theorem Within.reads (h : Within k g) (hr : Reads g s es left) (hs : ';' ∉ s) :
    ':' ∉ s ∧ Within k left ∧ DeclaresOnly [] es := by
  induction hr with
  | refl _ => exact ⟨List.not_mem_nil, h, .nil⟩
  | @step goals next left c s es fs hm _ ih =>
      obtain ⟨hc, hs⟩ := List.ne_and_not_mem_of_not_mem_cons hs
      rcases h.step (steps_of_step hm) with ⟨-, hc', hw, hd⟩ | ⟨he, -⟩ | ⟨he, -⟩
      · obtain ⟨hs', hl, hd'⟩ := ih hw hs
        exact ⟨List.not_mem_cons_of_ne_of_not_mem hc'.symm hs', hl, hd.append hd'⟩
      · exact absurd he.symm hc
      · exact absurd he.symm hc

/-- A class type ends at the first `;`, or else the reader is at the end of a type argument. -/
theorem Within.completes (h : Within k g) (hs : ';' ∉ s) (hc : Completes g (s ++ ';' :: t) es) :
    ∃ fs gs, es = fs ++ gs ∧ ((DeclaresOnly [] fs ∧ Completes k t gs) ∨
      ∃ k', Completes (inArgument k') t gs) := by
  obtain ⟨g', fs, gs, hr, hg, rfl⟩ := completes_append_iff.1 hc
  obtain ⟨-, hw, hd⟩ := h.reads hr hs
  obtain ⟨next, fs', gs', hm, hc', rfl⟩ := completes_cons_iff.1 hg
  refine ⟨fs ++ fs', gs', by rw [List.append_assoc], ?_⟩
  rcases hw.step (steps_of_step hm) with ⟨hn, -⟩ | ⟨-, rfl, hd'⟩ | ⟨-, k', rfl⟩
  · exact absurd rfl hn
  · exact Or.inl ⟨hd.append hd', hc'⟩
  · exact Or.inr ⟨k', hc'⟩

/-! ### At the end of a type argument the reading fails -/

theorem not_completes_inArgument_name (hs : ';' ∉ s) :
    ¬ Completes (inArgument k) (s ++ ':' :: t) es := by
  intro hc
  rw [List.append_cons] at hc
  obtain ⟨g, fs, gs, hr, -, -⟩ := completes_append_iff.1 hc
  have hs' : ';' ∉ s ++ [':'] := by simpa using hs
  exact (Within.argumentEnd.reads hr hs').1 (by simp)

theorem not_completes_inArgument_close : ¬ Completes (inArgument k) ('>' :: 'L' :: t) es := by
  intro hc
  obtain ⟨g, fs, gs, hm, hc, -⟩ := completes_cons_iff.1 hc
  obtain ⟨-, hn⟩ := Move.mk.inj hm
  obtain rfl : .classEnd :: k = g := Except.ok.inj hn
  obtain ⟨g', fs', gs', hm', -, -⟩ := completes_cons_iff.1 hc
  simp [step, readClassEnd] at hm'

theorem not_completes_inArgument_classes {names : List (List Char)} (hn : ∀ n ∈ names, ';' ∉ n) :
    ¬ Completes (inArgument k) (names.flatMap fun n => 'L' :: (n ++ [';'])) es := by
  induction names generalizing k es with
  | nil =>
      intro hc
      exact Within.argumentEnd.not_ends (ends_of_step (completes_nil_iff.1 hc))
  | cons n names ih =>
      intro hc
      obtain ⟨hn, hns⟩ := List.forall_mem_cons.1 hn
      rw [List.flatMap_cons, List.cons_append, List.append_assoc, List.singleton_append] at hc
      obtain ⟨g, fs, gs, hm, hc, -⟩ := completes_cons_iff.1 hc
      obtain ⟨-, hg⟩ := Move.mk.inj hm
      obtain rfl : .className "" :: inArgument k = g := Except.ok.inj hg
      obtain ⟨_, _, -, ⟨-, hc⟩ | ⟨k', hc⟩⟩ := (Within.className "").completes hn hc
      · exact ih hns hc
      · exact ih hns hc

/-! ### Trees of spliced names -/

/-- A class type without type arguments. -/
def TypeTree.raw (name : String) : TypeTree := .ofClass name .nil .nil

@[simp] theorem TypeTree.raw_chars {name : String} :
    (raw name).chars = 'L' :: (name.toList ++ [';']) := rfl

@[simp] theorem TypeTree.raw_events {name : String} :
    (raw name).events = [.classType name, .close] := rfl

@[simp] theorem TypeTree.raw_isClass {name : String} : (raw name).isClass = true := rfl

@[simp] theorem TypeTree.raw_isReference {name : String} : (raw name).isReference = true := rfl

@[simp] theorem TypeTree.raw_isWellFormed {name : String} :
    (raw name).isWellFormed = isName endsClassName name := by
  simp [raw, isWellFormed, ArgumentTrees.isWellFormed, InnerTrees.isWellFormed]

/-- A type parameter whose only bound is a class or an interface without type arguments. -/
structure RawFormal where
  name : String
  bound : String
  isInterface : Bool

/-- The tree of a type parameter. -/
def RawFormal.tree (formal : RawFormal) : FormalTree where
  name := formal.name
  classBound := if formal.isInterface then none else some (.raw formal.bound)
  interfaceBounds := if formal.isInterface then [.raw formal.bound] else []

/-- The names can be told apart from what follows them, as far as a type parameter may have such a
name and an erased type such a name. -/
def RawFormal.IsPlain (formal : RawFormal) : Prop :=
  isName endsName formal.name = true ∧ ';' ∉ formal.bound.toList

variable {formal : RawFormal} {formals : List RawFormal}

theorem RawFormal.tree_chars : formal.tree.chars = formal.name.toList ++
    ':' :: ((if formal.isInterface then [':'] else []) ++
      'L' :: (formal.bound.toList ++ [';'])) := by
  cases h : formal.isInterface <;> simp [tree, FormalTree.chars, h]

theorem RawFormal.tree_events : formal.tree.events = .formalParameter formal.name ::
    (if formal.isInterface then .interfaceBound else .classBound) ::
      (TypeTree.raw formal.bound).events := by
  cases h : formal.isInterface <;> simp [tree, FormalTree.events, h]

theorem RawFormal.semicolon_not_mem_name (h : formal.IsPlain) : ';' ∉ formal.name.toList :=
  fun hc => absurd ((isName_iff.1 h.1).2 ';' hc) (by decide)

/-! ### Type parameters -/

/-- A bound is read like the class type that it begins. -/
theorem reads_rawBound (formal : RawFormal) :
    Reads (.classBound :: .interfaceBounds :: k)
      ((if formal.isInterface then [':'] else []) ++ ['L'])
      [if formal.isInterface then .interfaceBound else .classBound]
      (.className "" :: .interfaceBounds :: k) := by
  cases formal.isInterface with
  | true =>
      have hcolon : Reads (.classBound :: .interfaceBounds :: k) [':'] [.interfaceBound]
        (.referenceType :: .interfaceBounds :: k) := .single rfl
      exact hcolon.trans (.single rfl)
  | false => exact .single rfl

/-- The name of a type parameter is read from any goals that take it like a new one. -/
theorem reads_rawFormal (hn : isName endsName formal.name = true)
    (hg : ∀ c, endsName c = false → step g (some c) = readFormal k (some c)) :
    Reads g (formal.name.toList ++ [':'] ++ ((if formal.isInterface then [':'] else []) ++ ['L']))
      [.formalParameter formal.name, if formal.isInterface then .interfaceBound else .classBound]
      (.className "" :: .interfaceBounds :: .moreFormals :: k) := by
  have hname : Begins (step g) (formal.name.toList ++ [':']) [.formalParameter formal.name]
      (.classBound :: .interfaceBounds :: .moreFormals :: k) := by
    refine (begins_formalName hn).of_move [] fun c fs next hm => ?_
    rw [hg c (readFormal_eq_ok_iff.1 hm).1, hm, List.nil_append]
  exact hname.reads.trans (reads_rawBound formal)

theorem declaresOnly_rawFormal (formal : RawFormal) : DeclaresOnly [formal.name]
    [.formalParameter formal.name, if formal.isInterface then .interfaceBound else .classBound] :=
  by cases formal.isInterface <;> constructor <;>
    simp [Event.formal?, Event.reference?, Event.endsFormals]

/-- A spliced bound ends where it ends, or else the reader is at the end of a type argument. -/
theorem completes_rawFormal (hp : formal.IsPlain)
    (hg : ∀ c, endsName c = false → step g (some c) = readFormal k (some c))
    (hc : Completes g (formal.tree.chars ++ s) es) :
    ∃ fs gs, es = fs ++ gs ∧
      ((DeclaresOnly [formal.name] fs ∧ Completes (.interfaceBounds :: .moreFormals :: k) s gs) ∨
        ∃ k', Completes (inArgument k') s gs) := by
  have hs : formal.tree.chars ++ s =
      formal.name.toList ++ [':'] ++ ((if formal.isInterface then [':'] else []) ++ ['L']) ++
        (formal.bound.toList ++ ';' :: s) := by
    rw [RawFormal.tree_chars]
    simp
  rw [hs] at hc
  obtain ⟨gs, rfl, hw⟩ := (reads_rawFormal hp.1 hg).completes_append hc
  obtain ⟨fs, gs, rfl, ⟨hd, hk⟩ | hk⟩ := (Within.className "").completes hp.2 hw
  · exact ⟨_, gs, (List.append_assoc ..).symm,
      Or.inl ⟨(declaresOnly_rawFormal formal).append hd, hk⟩⟩
  · exact ⟨_, gs, (List.append_assoc ..).symm, Or.inr hk⟩

/-- Spliced type parameters declare their names and nothing else. -/
theorem completes_rawFormals (hp : ∀ f ∈ formals, f.IsPlain) (hne : formals ≠ [])
    (hg : ∀ c, endsName c = false → step g (some c) = readFormal k (some c))
    (hc : Completes g ((formals.flatMap fun f => f.tree.chars) ++ '>' :: 'L' :: s) es) :
    ∃ fs gs, es = fs ++ gs ∧ DeclaresOnly (formals.map RawFormal.name) fs ∧
      Completes k ('L' :: s) gs := by
  induction formals generalizing g es with
  | nil => exact absurd rfl hne
  | cons formal rest ih =>
      obtain ⟨hf, hr⟩ := List.forall_mem_cons.1 hp
      rw [List.flatMap_cons, List.append_assoc] at hc
      obtain ⟨fs, gs, rfl, ⟨hd, hk⟩ | ⟨k', hk⟩⟩ := completes_rawFormal hf hg hc
      · cases rest with
        | nil =>
            have hclose : Reads (.interfaceBounds :: .moreFormals :: k) ['>'] [] k := .single rfl
            obtain ⟨gs, rfl, hk'⟩ := hclose.completes_append hk
            exact ⟨fs, gs, rfl, hd, hk'⟩
        | cons next rest =>
            obtain ⟨fs', gs', rfl, hd', hk⟩ := ih hr (List.cons_ne_nil _ _) (fun c hc => by
              have hcolon : some c ≠ some ':' := by
                rintro he
                obtain rfl := Option.some.inj he
                cases hc
              have hclose : some c ≠ some '>' := by
                rintro he
                obtain rfl := Option.some.inj he
                cases hc
              rw [step, if_neg hcolon, step, if_neg hclose]) hk
            exact ⟨fs ++ fs', gs', (List.append_assoc ..).symm, hd.append hd', hk⟩
      · -- what stands behind the bound does not continue a list of type arguments
        cases rest with
        | nil => exact absurd hk not_completes_inArgument_close
        | cons next rest =>
            rw [List.flatMap_cons, RawFormal.tree_chars, List.append_assoc, List.append_assoc,
              List.cons_append] at hk
            have hn := RawFormal.semicolon_not_mem_name (hr next List.mem_cons_self)
            exact absurd hk (not_completes_inArgument_name hn)

/-! ### Interfaces -/

/-- Spliced interfaces refer to no type variable. -/
theorem completes_rawInterfaces {names : List String} (hn : ∀ n ∈ names, ';' ∉ n.toList)
    (hc : Completes [.interfaces] (names.flatMap fun n => (TypeTree.raw n).chars) es) :
    ∀ e ∈ es, e.reference? = none := by
  induction names generalizing es with
  | nil =>
      obtain ⟨rfl, -⟩ := Move.leave_eq_ok_iff.1 (completes_nil_iff.1 hc)
      exact List.forall_mem_nil _
  | cons n names ih =>
      obtain ⟨hn, hns⟩ := List.forall_mem_cons.1 hn
      rw [List.flatMap_cons, TypeTree.raw_chars, List.cons_append, List.append_assoc,
        List.singleton_append] at hc
      have hopen : Reads [.interfaces] ['L'] [.interface] [.className "", .interfaces] :=
        .single rfl
      obtain ⟨gs, rfl, hw⟩ := hopen.completes_append hc
      obtain ⟨fs, gs, rfl, ⟨hd, hk⟩ | ⟨k', hk⟩⟩ := (Within.className "").completes hn hw
      · have hi := ih hns hk
        exact List.forall_mem_append.2 ⟨by simp [Event.reference?],
          List.forall_mem_append.2 ⟨hd.references, hi⟩⟩
      · have hnames : ∀ m ∈ names.map String.toList, ';' ∉ m := by
          simpa using hns
        have hflat : (names.flatMap fun n => (TypeTree.raw n).chars) =
            (names.map String.toList).flatMap fun n => 'L' :: (n ++ [';']) := by
          rw [List.flatMap_map]
          rfl
        rw [hflat] at hk
        exact absurd hk (not_completes_inArgument_classes hnames)

end RecordRepair.Signature
