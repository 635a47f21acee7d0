import RecordRepair.Proofs.Signature.Stream
import RecordRepair.Proofs.Signature.TreeReading

/-! # The trees behind a reading

A stack of goals is a sentential form of the grammar: it stands for the texts that its goals stand
for, one after the other.

* `Goal.Yields s t es g`: the goal `g` stands for the text `s` and its events `es`, where `t` stands
  behind.  Only a class bound asks what `t` is, since it may be left out ahead of some texts.  The
  part of a name that has been read belongs to the text of its tree and not to `s`.
* `Derives goals s t es`: the goals stand for `s`, goal by goal.
* `Acts.yields`: where the goals that replace a goal stand for a text, the goal stands for that text
  with the character in front.  This folds their trees into one, a case for each rule of the reader.
* `Completes.exists_tree`: so what is read to its end is the text of a well-formed tree, and the
  reading gives the events of the tree. -/

namespace RecordRepair.Signature

variable {goals rest left pushed : List Goal} {goal : Goal} {c : Char} {s t u : List Char}
  {es fs : List Event} {name : String} {p q : TypeTree → Bool}

/-! ### Texts of trees -/

/-- The text and the events of a well-formed type with a property. -/
def IsType (p : TypeTree → Bool) (s : List Char) (es : List Event) : Prop :=
  ∃ type : TypeTree, p type = true ∧ type.isWellFormed = true ∧ type.chars = s ∧ type.events = es

/-- The text and the events of well-formed types with a property.  A mark stands before each, and an
event announces it. -/
def AreTypes (p : TypeTree → Bool) (mark : List Char) (e : Event) (s : List Char)
    (es : List Event) : Prop :=
  ∃ types : List TypeTree, (∀ type ∈ types, p type = true ∧ type.isWellFormed = true) ∧
    (types.flatMap fun type => mark ++ type.chars) = s ∧
    (types.flatMap fun type => e :: type.events) = es

/-- The text and the events of type arguments up to the end of their list. -/
def AreArguments (s : List Char) (es : List Event) : Prop :=
  ∃ arguments : ArgumentTrees, arguments.isWellFormed = true ∧ arguments.chars ++ ['>'] = s ∧
    arguments.events = es

/-- The text and the events that end a class type, inner classes among them. -/
def EndsType (s : List Char) (es : List Event) : Prop :=
  ∃ inner : InnerTrees, inner.isWellFormed = true ∧ inner.chars ++ [';'] = s ∧
    .close :: inner.events = es

/-- The text and the events behind the name of a class. -/
def FollowsClass (s : List Char) (es : List Event) : Prop :=
  ∃ (arguments : ArgumentTrees) (inner : InnerTrees), arguments.isWellFormed = true ∧
    inner.isWellFormed = true ∧ arguments.listChars ++ (inner.chars ++ [';']) = s ∧
    arguments.events ++ .close :: inner.events = es

/-- The text and the events of type parameters up to the end of their list. -/
def AreFormals (s : List Char) (es : List Event) : Prop :=
  ∃ formals : List FormalTree, FormalTree.areWellFormed formals = true ∧
    formals.flatMap FormalTree.chars ++ ['>'] = s ∧ formals.flatMap FormalTree.events = es

theorem IsType.imp (h : IsType p s es) (hpq : ∀ type, p type = true → q type = true) :
    IsType q s es := by
  obtain ⟨type, hp, hw, hs, he⟩ := h
  exact ⟨type, hpq type hp, hw, hs, he⟩

theorem TypeTree.isThrowable_of_isClass (type : TypeTree) (h : type.isClass = true) :
    type.isThrowable = true := by
  cases type <;> first | rfl | cases h

theorem TypeTree.isReference_of_isThrowable (type : TypeTree) (h : type.isThrowable = true) :
    type.isReference = true := by
  cases type <;> first | rfl | cases h

theorem AreTypes.nil {mark : List Char} {e : Event} : AreTypes p mark e [] [] :=
  ⟨[], List.forall_mem_nil _, rfl, rfl⟩

theorem IsType.areTypes {mark : List Char} {e : Event} (h : IsType p s es)
    (hs : AreTypes p mark e t fs) :
    AreTypes p mark e (mark ++ s ++ t) (e :: (es ++ fs)) := by
  obtain ⟨type, hp, hw, rfl, rfl⟩ := h
  obtain ⟨types, hall, rfl, rfl⟩ := hs
  exact ⟨type :: types, List.forall_mem_cons.2 ⟨⟨hp, hw⟩, hall⟩, rfl, rfl⟩

/-! ### Sentential forms -/

/-- What a goal stands for. -/
def Goal.Yields (s t : List Char) (es : List Event) : Goal → Prop
  | .formals => ∃ formals, FormalTree.areWellFormed formals = true ∧
      FormalTree.listChars formals = s ∧ formals.flatMap FormalTree.events = es
  | .firstFormal => AreFormals s es ∧ s ≠ ['>']
  | .moreFormals => AreFormals s es
  | .formalName name => AreFormals (name.toList ++ s) es
  | .classBound => (s = [] ∧ es = [] ∧ NoBound t) ∨
      ∃ fs, es = .classBound :: fs ∧ IsType TypeTree.isReference s fs
  | .interfaceBounds => AreTypes TypeTree.isReference [':'] .interfaceBound s es
  | .superclass => ∃ fs, es = .superclass :: fs ∧ IsType TypeTree.isClass s fs
  | .interfaces => AreTypes TypeTree.isClass [] .interface s es
  | .parameters => ∃ u, s = '(' :: (u ++ [')']) ∧ AreTypes (fun _ => true) [] .parameterType u es
  | .moreParameters => ∃ u, s = u ++ [')'] ∧ AreTypes (fun _ => true) [] .parameterType u es
  | .returnType => (s = ['V'] ∧ es = [.returnType, .voidType]) ∨
      ∃ fs, es = .returnType :: fs ∧ IsType (fun _ => true) s fs
  | .exceptions => AreTypes TypeTree.isThrowable ['^'] .exceptionType s es
  | .exceptionType => AreTypes TypeTree.isThrowable ['^'] .exceptionType ('^' :: s) es
  | .javaType => IsType (fun _ => true) s es
  | .referenceType => IsType TypeTree.isReference s es
  | .variableName name => IsType TypeTree.isThrowable ('T' :: (name.toList ++ s)) es
  | .className name => IsType TypeTree.isClass ('L' :: (name.toList ++ s)) es
  | .innerName name => EndsType ('.' :: (name.toList ++ s)) es
  | .classEnd => EndsType s es
  | .firstArgument => AreArguments s es ∧ s ≠ ['>']
  | .moreArguments => AreArguments s es
  | .argumentEnd => s = [] ∧ es = [.close]

/-- Goals stand for a text ahead of another one, and for its events. -/
inductive Derives : List Goal → List Char → List Char → List Event → Prop
  | nil (t : List Char) : Derives [] [] t []
  | cons {goal : Goal} {goals : List Goal} {s u t : List Char} {es fs : List Event} :
      goal.Yields s (u ++ t) es → Derives goals u t fs →
      Derives (goal :: goals) (s ++ u) t (es ++ fs)

theorem Derives.eq_nil (h : Derives [] s t es) : s = [] ∧ es = [] := by
  cases h
  exact ⟨rfl, rfl⟩

theorem derives_cons_iff : Derives (goal :: goals) s t es ↔ ∃ s₁ s₂ es₁ es₂,
    s = s₁ ++ s₂ ∧ es = es₁ ++ es₂ ∧ goal.Yields s₁ (s₂ ++ t) es₁ ∧ Derives goals s₂ t es₂ := by
  constructor
  · intro h
    cases h with
    | cons hy hd => exact ⟨_, _, _, _, rfl, rfl, hy, hd⟩
  · rintro ⟨s₁, s₂, es₁, es₂, rfl, rfl, hy, hd⟩
    exact .cons hy hd

theorem derives_singleton_iff : Derives [goal] s t es ↔ goal.Yields s t es := by
  constructor
  · intro h
    obtain ⟨s₁, s₂, es₁, es₂, rfl, rfl, hy, hd⟩ := derives_cons_iff.1 h
    obtain ⟨rfl, rfl⟩ := hd.eq_nil
    simpa using hy
  · intro h
    have hd : Derives [goal] (s ++ []) t (es ++ []) := .cons (by simpa using h) (.nil t)
    simpa using hd

/-- A text that goals stand for may be cut between them. -/
theorem Derives.cut (h : Derives (goals ++ rest) s t es) : ∃ s₁ s₂ es₁ es₂,
    s = s₁ ++ s₂ ∧ es = es₁ ++ es₂ ∧ Derives goals s₁ (s₂ ++ t) es₁ ∧ Derives rest s₂ t es₂ := by
  induction goals generalizing s es with
  | nil => exact ⟨[], s, [], es, rfl, rfl, .nil _, h⟩
  | cons goal goals ih =>
      obtain ⟨s₁, s₂, es₁, es₂, rfl, rfl, hy, hd⟩ := derives_cons_iff.1 h
      obtain ⟨s₂, s₃, es₂, es₃, rfl, rfl, hg, hr⟩ := ih hd
      rw [List.append_assoc] at hy
      exact ⟨s₁ ++ s₂, s₃, es₁ ++ es₂, es₃, (List.append_assoc ..).symm,
        (List.append_assoc ..).symm, .cons hy hg, hr⟩

/-! ### Types -/

theorem OpensReference.isThrowable (h : OpensReference c es pushed) (hc : c ≠ '[')
    (hd : Derives pushed s t fs) : IsType TypeTree.isThrowable (c :: s) (es ++ fs) := by
  cases h with
  | ofClass =>
      have hy : Goal.Yields s t fs (.className "") := derives_singleton_iff.1 hd
      exact IsType.imp hy TypeTree.isThrowable_of_isClass
  | typeVariable =>
      have hy : Goal.Yields s t fs (.variableName "") := derives_singleton_iff.1 hd
      exact hy
  | array => exact absurd rfl hc

theorem OpensReference.isReference (h : OpensReference c es pushed) (hd : Derives pushed s t fs) :
    IsType TypeTree.isReference (c :: s) (es ++ fs) := by
  by_cases hc : c = '['
  · subst hc
    cases h with
    | array =>
        have hy : Goal.Yields s t fs .javaType := derives_singleton_iff.1 hd
        obtain ⟨component, -, hw, rfl, rfl⟩ := hy
        exact ⟨.array component, rfl, hw, rfl, rfl⟩
  · exact (h.isThrowable hc hd).imp TypeTree.isReference_of_isThrowable

theorem OpensType.isType (h : OpensType c es pushed) (hd : Derives pushed s t fs) :
    IsType (fun _ => true) (c :: s) (es ++ fs) := by
  cases h with
  | base b =>
      obtain ⟨rfl, rfl⟩ := hd.eq_nil
      exact ⟨.base b, rfl, rfl, rfl, rfl⟩
  | reference hr => exact (hr.isReference hd).imp fun _ _ => rfl

/-! ### Class types -/

theorem EndsClass.endsType (h : EndsClass c es pushed) (hd : Derives pushed s t fs) :
    EndsType (c :: s) (es ++ fs) := by
  cases h with
  | close =>
      obtain ⟨rfl, rfl⟩ := hd.eq_nil
      exact ⟨.nil, rfl, rfl, rfl⟩
  | inner =>
      have hy : Goal.Yields s t fs (.innerName "") := derives_singleton_iff.1 hd
      exact hy

theorem FollowsName.followsClass (h : FollowsName c es pushed) (hd : Derives pushed s t fs) :
    FollowsClass (c :: s) (es ++ fs) := by
  cases h with
  | arguments =>
      obtain ⟨s₁, s₂, es₁, es₂, rfl, rfl, hy, hr⟩ := derives_cons_iff.1 hd
      obtain ⟨⟨arguments, ha, rfl, rfl⟩, hne⟩ := hy
      have hi : Goal.Yields s₂ t es₂ .classEnd := derives_singleton_iff.1 hr
      obtain ⟨inner, hi, rfl, rfl⟩ := hi
      have hnil : arguments ≠ .nil := by
        rintro rfl
        exact hne rfl
      refine ⟨arguments, inner, ha, hi, ?_, rfl⟩
      rw [ArgumentTrees.listChars_eq hnil, List.cons_append]
  | ends he =>
      obtain ⟨inner, hi, hs, hes⟩ := he.endsType hd
      exact ⟨.nil, inner, rfl, hi, hs, hes⟩

theorem FollowsClass.isType (h : FollowsClass s es) (hn : isName endsClassName name = true) :
    IsType TypeTree.isClass ('L' :: (name.toList ++ s)) (.classType name :: es) := by
  obtain ⟨arguments, inner, ha, hi, rfl, rfl⟩ := h
  refine ⟨.ofClass name arguments inner, rfl, ?_, rfl, rfl⟩
  simp [TypeTree.isWellFormed, hn, ha, hi]

theorem FollowsClass.endsType (h : FollowsClass s es) (hn : isName endsName name = true) :
    EndsType ('.' :: (name.toList ++ s)) (.close :: .innerClassType name :: es) := by
  obtain ⟨arguments, inner, ha, hi, rfl, rfl⟩ := h
  refine ⟨.cons name arguments inner, ?_, ?_, rfl⟩
  · simp [InnerTrees.isWellFormed, hn, ha, hi]
  · simp [InnerTrees.chars]

/-! ### Type arguments -/

theorem IsType.areArguments (h : IsType TypeTree.isReference u es) (wildcard : Wildcard)
    (hd : Derives [.argumentEnd, .moreArguments] s t fs) :
    AreArguments (wildcard.marker?.toList ++ (u ++ s)) (.typeArgument wildcard :: (es ++ fs)) := by
  obtain ⟨type, href, hw, rfl, rfl⟩ := h
  obtain ⟨s₁, s₂, es₁, es₂, rfl, rfl, hy, hr⟩ := derives_cons_iff.1 hd
  obtain ⟨rfl, rfl⟩ := hy
  have hm : Goal.Yields s₂ t es₂ .moreArguments := derives_singleton_iff.1 hr
  obtain ⟨rest, hrest, rfl, rfl⟩ := hm
  refine ⟨.bounded wildcard type rest, ?_, ?_, rfl⟩
  · simp [ArgumentTrees.isWellFormed, href, hw, hrest]
  · simp [ArgumentTrees.chars]

theorem OpensArgument.areArguments (h : OpensArgument c es pushed) (hd : Derives pushed s t fs) :
    AreArguments (c :: s) (es ++ fs) := by
  cases h with
  | unbounded =>
      have hm : Goal.Yields s t fs .moreArguments := derives_singleton_iff.1 hd
      obtain ⟨rest, hrest, rfl, rfl⟩ := hm
      exact ⟨.unbounded rest, hrest, rfl, rfl⟩
  | @wildcard w c hw =>
      obtain ⟨s₁, s₂, es₁, es₂, rfl, rfl, hy, hd⟩ := derives_cons_iff.1 hd
      have ht : IsType TypeTree.isReference s₁ es₁ := hy
      have ha := ht.areArguments w hd
      rw [hw] at ha
      exact ha
  | exact hr =>
      obtain ⟨s₁, s₂, es₁, es₂, rfl, rfl, hp, hd⟩ := hd.cut
      have ha := (hr.isReference hp).areArguments .exact hd
      simpa [Wildcard.marker?] using ha

theorem OpensArgument.ne_close (h : OpensArgument c es pushed) : c ≠ '>' := by
  cases h with
  | unbounded => decide
  | @wildcard w c hw =>
      rintro rfl
      cases w <;> exact absurd hw (by decide)
  | exact hr => cases hr <;> decide

/-! ### Type parameters -/

/-- A type parameter with its bounds stands in front of the others. -/
theorem areFormals_cons (hn : isName endsName name = true)
    (hd : Derives [.classBound, .interfaceBounds, .moreFormals] s t fs) :
    AreFormals (name.toList ++ ':' :: s) (.formalParameter name :: fs) := by
  obtain ⟨s₁, s₂, es₁, es₂, rfl, rfl, hbound, hd⟩ := derives_cons_iff.1 hd
  obtain ⟨s₂, s₃, es₂, es₃, rfl, rfl, hbounds, hd⟩ := derives_cons_iff.1 hd
  have hrest : Goal.Yields s₃ t es₃ .moreFormals := derives_singleton_iff.1 hd
  obtain ⟨rest, hr, rfl, rfl⟩ := hrest
  obtain ⟨bounds, hb, rfl, rfl⟩ := hbounds
  rcases hbound with ⟨rfl, rfl, hahead⟩ | ⟨es, rfl, type, htr, htw, rfl, rfl⟩
  · -- the class bound is left out, so what stands there is none
    have hw : FormalTree.isWellFormed ⟨name, none, bounds⟩ = true := by
      simpa [FormalTree.isWellFormed, hn] using hb
    have hahead' : NoBound (FormalTree.interfaceChars ⟨name, none, bounds⟩ ++
        (rest.flatMap FormalTree.chars ++ ['>'])) := by
      rw [← List.append_assoc, noBound_append_cons_iff (u := t)]
      simpa [FormalTree.interfaceChars] using hahead
    refine ⟨⟨name, none, bounds⟩ :: rest, ?_, ?_, ?_⟩
    · exact FormalTree.areWellFormed_cons_iff.2 ⟨hw, hr, fun _ => hahead'⟩
    · simp [FormalTree.chars]
    · simp [FormalTree.events]
  · have hw : FormalTree.isWellFormed ⟨name, some type, bounds⟩ = true := by
      simpa [FormalTree.isWellFormed, hn, htr, htw] using hb
    refine ⟨⟨name, some type, bounds⟩ :: rest, ?_, ?_, ?_⟩
    · refine FormalTree.areWellFormed_cons_iff.2 ⟨hw, hr, fun hc => ?_⟩
      exact absurd hc (Option.some_ne_none type)
    · simp [FormalTree.chars]
    · simp [FormalTree.events]

/-! ### What a goal stands for before it takes a character -/

/-- **A character stands in front of what the new goals stand for.** -/
theorem Acts.yields (h : Acts goal c es pushed) (hg : goal.HasProperName)
    (hd : Derives pushed s t fs) : goal.Yields (c :: s) t (es ++ fs) := by
  cases h with
  | openFormals =>
      have hy : Goal.Yields s t fs .firstFormal := derives_singleton_iff.1 hd
      obtain ⟨⟨formals, hw, rfl, rfl⟩, hne⟩ := hy
      refine ⟨formals, hw, ?_, rfl⟩
      cases formals with
      | nil => exact absurd rfl hne
      | cons formal rest => rfl
  | firstFormal he =>
      have hy : AreFormals ((String.singleton c).toList ++ s) fs := derives_singleton_iff.1 hd
      rw [String.toList_singleton] at hy
      have hc : c ≠ '>' := by
        rintro rfl
        exact absurd he (by decide)
      exact ⟨hy, fun hs => hc (List.cons.inj hs).1⟩
  | moreFormals he =>
      have hy : AreFormals ((String.singleton c).toList ++ s) fs := derives_singleton_iff.1 hd
      rw [String.toList_singleton] at hy
      exact hy
  | closeFormals =>
      obtain ⟨rfl, rfl⟩ := hd.eq_nil
      exact ⟨[], rfl, rfl, rfl⟩
  | @formalName name c he =>
      have hy : AreFormals ((name.push c).toList ++ s) fs := derives_singleton_iff.1 hd
      rw [String.toList_push, List.append_assoc] at hy
      exact hy
  | formal name => exact areFormals_cons hg hd
  | classBound h => exact Or.inr ⟨_, rfl, h.isReference hd⟩
  | interfaceBound =>
      obtain ⟨s₁, s₂, es₁, es₂, rfl, rfl, hy, hr⟩ := derives_cons_iff.1 hd
      have ht : IsType TypeTree.isReference s₁ es₁ := hy
      exact ht.areTypes (derives_singleton_iff.1 hr)
  | superclass =>
      have hy : Goal.Yields s t fs (.className "") := derives_singleton_iff.1 hd
      exact ⟨fs, rfl, hy⟩
  | interface =>
      obtain ⟨s₁, s₂, es₁, es₂, rfl, rfl, hy, hr⟩ := derives_cons_iff.1 hd
      have ht : IsType TypeTree.isClass ('L' :: s₁) es₁ := hy
      exact ht.areTypes (derives_singleton_iff.1 hr)
  | openParameters =>
      have hy : Goal.Yields s t fs .moreParameters := derives_singleton_iff.1 hd
      obtain ⟨u, rfl, hu⟩ := hy
      exact ⟨u, rfl, hu⟩
  | closeParameters =>
      obtain ⟨rfl, rfl⟩ := hd.eq_nil
      exact ⟨[], rfl, .nil⟩
  | parameter h =>
      obtain ⟨s₁, s₂, es₁, es₂, rfl, rfl, hp, hr⟩ := hd.cut
      have hy : Goal.Yields s₂ t es₂ .moreParameters := derives_singleton_iff.1 hr
      obtain ⟨u, rfl, hu⟩ := hy
      have ht := (h.isType hp).areTypes hu
      exact ⟨c :: s₁ ++ u, by simp, by simpa using ht⟩
  | void =>
      obtain ⟨rfl, rfl⟩ := hd.eq_nil
      exact Or.inl ⟨rfl, rfl⟩
  | result h => exact Or.inr ⟨_, rfl, h.isType hd⟩
  | exception =>
      have hy : Goal.Yields s t fs .exceptionType := derives_singleton_iff.1 hd
      exact hy
  | exceptionType h hc =>
      obtain ⟨s₁, s₂, es₁, es₂, rfl, rfl, hp, hr⟩ := hd.cut
      have ht := (h.isThrowable hc hp).areTypes (derives_singleton_iff.1 hr)
      simpa [Goal.Yields] using ht
  | javaType h => exact h.isType hd
  | referenceType h => exact h.isReference hd
  | @variableName name c he =>
      have hy : Goal.Yields s t fs (.variableName (name.push c)) := derives_singleton_iff.1 hd
      simpa [Goal.Yields] using hy
  | @variableEnd name hn =>
      obtain ⟨rfl, rfl⟩ := hd.eq_nil
      exact ⟨.typeVariable name, rfl, isName_iff.2 ⟨hn, hg⟩, rfl, rfl⟩
  | @className name c he =>
      have hy : Goal.Yields s t fs (.className (name.push c)) := derives_singleton_iff.1 hd
      simpa [Goal.Yields] using hy
  | classEnd hn h => exact (h.followsClass hd).isType (isName_iff.2 ⟨hn, hg⟩)
  | @innerName name c he =>
      have hy : Goal.Yields s t fs (.innerName (name.push c)) := derives_singleton_iff.1 hd
      simpa [Goal.Yields] using hy
  | innerEnd hn h => exact (h.followsClass hd).endsType (isName_iff.2 ⟨hn, hg⟩)
  | afterArguments h => exact h.endsType hd
  | firstArgument h =>
      exact ⟨h.areArguments hd, fun hs => h.ne_close (List.cons.inj hs).1⟩
  | moreArguments h => exact h.areArguments hd
  | closeArguments =>
      obtain ⟨rfl, rfl⟩ := hd.eq_nil
      exact ⟨.nil, rfl, rfl, rfl⟩

theorem Skips.yields (h : Skips goal c es) : goal.Yields [] (c :: t) es := by
  cases h with
  | formals _ => exact ⟨[], rfl, rfl, rfl⟩
  | classBound hl ht ha => exact Or.inl ⟨rfl, rfl, noBound_cons_iff.2 ⟨hl, ht, ha⟩⟩
  | interfaceBounds _ => exact .nil
  | exceptions _ => exact .nil
  | argumentEnd => exact ⟨rfl, rfl⟩

theorem Goal.yields_nil_of_isOptional (h : goal.isOptional = true) : goal.Yields [] [] [] := by
  cases goal with
  | formals => exact ⟨[], rfl, rfl, rfl⟩
  | classBound => exact Or.inl ⟨rfl, rfl, fun c hc => absurd hc (Option.not_mem_none c)⟩
  | interfaceBounds => exact .nil
  | interfaces => exact .nil
  | exceptions => exact .nil
  | _ => cases h

/-! ### Readings -/

/-- A step backwards: the goals stand for the character and what the goals behind it stand for. -/
theorem Steps.derives (h : Steps goals c es left) (hg : ∀ g ∈ goals, g.HasProperName)
    (hd : Derives left s t fs) : Derives goals (c :: s) t (es ++ fs) := by
  induction h with
  | act ha =>
      obtain ⟨s₁, s₂, es₁, es₂, rfl, rfl, hp, hr⟩ := hd.cut
      have hy := ha.yields (hg _ List.mem_cons_self) hp
      rw [← List.append_assoc]
      exact .cons hy hr
  | skip hs _ ih =>
      have hr := ih (List.forall_mem_cons.1 hg).2 hd
      rw [List.append_assoc]
      exact .cons hs.yields hr

theorem Ends.derives (h : Ends goals es) : Derives goals [] [] es := by
  induction h with
  | nil => exact .nil []
  | skip ho _ ih => exact .cons (Goal.yields_nil_of_isOptional ho) ih
  | argumentEnd _ ih =>
      have hy : Goal.Yields [] ([] ++ []) [.close] .argumentEnd := ⟨rfl, rfl⟩
      exact .cons hy ih

/-- **Goals stand for whatever is read from them to the end.** -/
theorem Completes.derives (h : Completes goals s es) (hg : ∀ g ∈ goals, g.HasProperName) :
    Derives goals s [] es := by
  induction h with
  | stop hs => exact (ends_of_step hs).derives
  | step hs _ ih =>
      have hstep := steps_of_step hs
      have hleft := (hstep.kept keeps_hasProperName hg).1
      exact hstep.derives hg (ih hleft)

/-! ### Whole signatures -/

theorem exists_classTree (h : Derives Kind.classKind.goals s [] es) :
    ∃ tree : ClassTree, tree.isWellFormed = true ∧ tree.chars = s ∧ tree.events = es := by
  obtain ⟨s₁, s₂, es₁, es₂, rfl, rfl, hformals, hd⟩ := derives_cons_iff.1 h
  obtain ⟨s₂, s₃, es₂, es₃, rfl, rfl, hsuper, hd⟩ := derives_cons_iff.1 hd
  have hinterfaces : Goal.Yields s₃ [] es₃ .interfaces := derives_singleton_iff.1 hd
  obtain ⟨formals, hf, rfl, rfl⟩ := hformals
  obtain ⟨fs, rfl, type, hc, hw, rfl, rfl⟩ := hsuper
  obtain ⟨interfaces, hi, rfl, rfl⟩ := hinterfaces
  refine ⟨⟨formals, type, interfaces⟩, ?_, ?_, ?_⟩
  · simpa [ClassTree.isWellFormed, hf, hc, hw] using hi
  · simp [ClassTree.chars]
  · simp [ClassTree.events]

theorem exists_methodTree (h : Derives Kind.methodKind.goals s [] es) :
    ∃ tree : MethodTree, tree.isWellFormed = true ∧ tree.chars = s ∧ tree.events = es := by
  obtain ⟨s₁, s₂, es₁, es₂, rfl, rfl, hformals, hd⟩ := derives_cons_iff.1 h
  obtain ⟨s₂, s₃, es₂, es₃, rfl, rfl, hparameters, hd⟩ := derives_cons_iff.1 hd
  obtain ⟨s₃, s₄, es₃, es₄, rfl, rfl, hresult, hd⟩ := derives_cons_iff.1 hd
  have hexceptions : Goal.Yields s₄ [] es₄ .exceptions := derives_singleton_iff.1 hd
  obtain ⟨formals, hf, rfl, rfl⟩ := hformals
  obtain ⟨u, rfl, parameters, hp, rfl, rfl⟩ := hparameters
  obtain ⟨exceptions, he, rfl, rfl⟩ := hexceptions
  obtain ⟨result, hr, hrs, hre⟩ : ∃ result : Option TypeTree,
      (∀ type ∈ result, type.isWellFormed = true) ∧ result.elim ['V'] TypeTree.chars = s₃ ∧
        .returnType :: result.elim [.voidType] TypeTree.events = es₃ := by
    rcases hresult with ⟨rfl, rfl⟩ | ⟨fs, rfl, type, -, hw, rfl, rfl⟩
    · exact ⟨none, by simp, rfl, rfl⟩
    · exact ⟨some type, by simpa using hw, rfl, rfl⟩
  subst hrs hre
  refine ⟨⟨formals, parameters, result, exceptions⟩, ?_, ?_, ?_⟩
  · simp only [MethodTree.isWellFormed, hf, Bool.true_and, Bool.and_eq_true, List.all_append,
      List.all_eq_true, Option.mem_toList]
    exact ⟨⟨fun type hm => (hp type hm).2, hr⟩, he⟩
  · simp [MethodTree.chars]
  · simp [MethodTree.events]

/-- **What is read to its end is the text of a well-formed tree,** and the reading gives the events
of the tree. -/
theorem Completes.exists_tree {kind : Kind} (h : Completes kind.goals s es) :
    ∃ tree : Tree, tree.kind = kind ∧ tree.isWellFormed = true ∧ tree.chars = s ∧
      tree.events = es := by
  have hd := h.derives kindGoals_hasProperName
  cases kind with
  | classKind =>
      obtain ⟨tree, hw, hs, he⟩ := exists_classTree hd
      exact ⟨.ofClass tree, rfl, hw, hs, he⟩
  | methodKind =>
      obtain ⟨tree, hw, hs, he⟩ := exists_methodTree hd
      exact ⟨.ofMethod tree, rfl, hw, hs, he⟩
  | fieldKind =>
      have hy : Goal.Yields s [] es .referenceType := derives_singleton_iff.1 hd
      obtain ⟨type, hr, hw, hs, he⟩ := hy
      refine ⟨.ofField type, rfl, ?_, hs, he⟩
      rw [Tree.isWellFormed, hr, hw]
      rfl

end RecordRepair.Signature
