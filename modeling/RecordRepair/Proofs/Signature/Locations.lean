import RecordRepair.Proofs.Signature.Depths
import RecordRepair.Proofs.Signature.Finding
import RecordRepair.Proofs.Signature.Grammar

/-! # Where in a signature type variables stand

* `Tree.Holds` cuts the text of a signature into its parts: the list of type parameters, and the
  types behind it one by one.
* `Tree.Locates`: a place tells the part that the text before it leads into, and fits that text.
* `finds_formals` and `finds_types` find the type variables in the type parameters of a signature
  and in a row of its types.
* `walk_locates_variables`: at every type variable of an accepted signature, the place tells where
  in the text it stands. -/

namespace RecordRepair.Signature

variable {k left : List Goal} {s t seen : List Char} {es : List Event} {place next : Place}
  {part : Part} {name : String} {Q : List Char → String → Place → Prop}

/-! ### The parts of a signature -/

/-- Some text is that of a part of a signature, and some text stands before it. -/
inductive Tree.Holds : Tree → Part → List Char → List Char → Prop
  | field (type : TypeTree) : Holds (.ofField type) .field [] type.chars
  | classFormals (tree : ClassTree) :
      Holds (.ofClass tree) .formalBound [] (FormalTree.listChars tree.formals)
  | superclass (tree : ClassTree) :
      Holds (.ofClass tree) .superclass (FormalTree.listChars tree.formals) tree.superclass.chars
  | interface {tree : ClassTree} {ts us : List TypeTree} {type : TypeTree} :
      tree.interfaces = ts ++ type :: us →
      Holds (.ofClass tree) .interface
        (FormalTree.listChars tree.formals ++ tree.superclass.chars ++ ts.flatMap TypeTree.chars)
        type.chars
  | methodFormals (tree : MethodTree) :
      Holds (.ofMethod tree) .formalBound [] (FormalTree.listChars tree.formals)
  | parameter {tree : MethodTree} {ts us : List TypeTree} {type : TypeTree} :
      tree.parameters = ts ++ type :: us →
      Holds (.ofMethod tree) (.parameter ts.length)
        (FormalTree.listChars tree.formals ++ ['('] ++ ts.flatMap TypeTree.chars) type.chars
  | returnType {tree : MethodTree} {type : TypeTree} : tree.result = some type →
      Holds (.ofMethod tree) .returnType
        (FormalTree.listChars tree.formals ++ ['('] ++ tree.parameters.flatMap TypeTree.chars ++
          [')']) type.chars
  | exception {tree : MethodTree} {ts us : List TypeTree} {type : TypeTree} :
      tree.exceptions = ts ++ type :: us →
      Holds (.ofMethod tree) .exception
        (FormalTree.listChars tree.formals ++ ['('] ++ tree.parameters.flatMap TypeTree.chars ++
          [')'] ++ tree.result.elim ['V'] TypeTree.chars ++
          (ts.flatMap fun type => '^' :: type.chars) ++ ['^']) type.chars

theorem Tree.Holds.exists_chars {tree : Tree} {start piece : List Char}
    (h : tree.Holds part start piece) : ∃ back, tree.chars = start ++ piece ++ back := by
  cases h with
  | field type => exact ⟨[], by simp [chars]⟩
  | classFormals tree => exact ⟨_, rfl⟩
  | superclass tree =>
      exact ⟨tree.interfaces.flatMap TypeTree.chars, by simp [chars, ClassTree.chars]⟩
  | @interface tree ts us type hi =>
      exact ⟨us.flatMap TypeTree.chars, by simp [chars, ClassTree.chars, hi]⟩
  | methodFormals tree => exact ⟨_, rfl⟩
  | @parameter tree ts us type hp =>
      exact ⟨us.flatMap TypeTree.chars ++ ')' :: (tree.result.elim ['V'] TypeTree.chars ++
        tree.exceptions.flatMap fun type => '^' :: type.chars),
        by simp [chars, MethodTree.chars, hp]⟩
  | @returnType tree type hr =>
      exact ⟨tree.exceptions.flatMap fun type => '^' :: type.chars,
        by simp [chars, MethodTree.chars, hr]⟩
  | @exception tree ts us type he =>
      exact ⟨us.flatMap fun type => '^' :: type.chars, by simp [chars, MethodTree.chars, he]⟩

/-- The structures that do not account for an open `<` where no type is begun: none but the list of
type parameters, which stands for as many as a list of type arguments. -/
def Part.gap (part : Part) : Nat := if part = .formalBound then 2 else 0

/-- A place tells which part of a signature the text before it leads into, and fits that text. -/
def Tree.Locates (tree : Tree) (before : List Char) (name : String) (place : Place) : Prop :=
  ∃ start inside rest, before = start ++ inside ∧
    tree.Holds place.part start (inside ++ ('T' :: name.toList ++ ';' :: rest)) ∧
    place.Fits place.part.gap before

theorem Tree.Holds.locates {tree : Tree} {start piece s₁ : List Char}
    (h : tree.Holds part start piece) (hs : s₁ ++ ('T' :: name.toList ++ [';']) <+: piece)
    (hl : Located part part.gap (start ++ s₁) name place) :
    tree.Locates (start ++ s₁) name place := by
  obtain ⟨rest, rfl⟩ := hs
  obtain ⟨rfl, hf⟩ := hl
  exact ⟨start, s₁, rest, rfl, by simpa using h, hf⟩

/-! ### Types behind their announcements -/

/-- Whether an event announces a type and says what part of the signature it belongs to. -/
def Event.announces : Event → Bool
  | classBound => true
  | interfaceBound => true
  | superclass => true
  | interface => true
  | parameterType => true
  | returnType => true
  | exceptionType => true
  | _ => false

theorem Event.advance_of_announces {e : Event} (h : e.announces = true) (place : Place) :
    e.reference? = none ∧ (place.advance e).depth = place.depth ∧
      (place.advance e).afterArray = false := by
  cases e <;> first | exact ⟨rfl, rfl, rfl⟩ | cases h

/-- A well-formed type is read from a move on, and so are the type variables in it, behind so many
`<` that open no type arguments. -/
structure TypeTree.IsReadBy (type : TypeTree) (m : Option Char → Move) (g : List Goal)
    (others : Nat) : Prop where
  wellFormed : type.isWellFormed = true
  begins : Begins m type.chars type.events g
  finds : ∀ {place : Place} {seen : List Char} {part : Part}, place.part = part →
    place.Fits (2 * others) seen →
    Finds m place seen type.chars type.events (Located part (2 * others))

section

variable {g : List Goal} {m m' : Option Char → Move} {others : Nat} {mark : List Char} {e : Event}
  {type : TypeTree}

theorem TypeTree.isReadBy_reference (hr : type.isReference = true)
    (hw : type.isWellFormed = true) : type.IsReadBy (readReference g) g others :=
  ⟨hw, TypeTree.begins g type hr hw, fun hp hf => TypeTree.finds g _ _ hp hf type hr hw⟩

theorem TypeTree.isReadBy_java (hw : type.isWellFormed = true) :
    type.IsReadBy (readJava g) g others :=
  ⟨hw, TypeTree.begins_any hw, fun hp hf => TypeTree.finds_any g hp hf hw⟩

theorem finds_announced (he : e.announces = true) (hmark : IsClosed mark)
    (hread : type.IsReadBy m g others)
    (hm : ∀ s' es' left, s' ≠ [] → s' <+: type.chars → Begins m s' es' left →
      Begins m' (mark ++ s') (e :: es') left)
    (hp : (place.advance e).part = part) (hf : place.Fits (2 * others) seen)
    (ha : place.afterArray = false)
    (hQ : ∀ s₁ name p, s₁ ++ ('T' :: name.toList ++ [';']) <+: type.chars →
      Located part (2 * others) (seen ++ mark ++ s₁) name p → Q (seen ++ mark ++ s₁) name p)
    (h : (place.advance e).past.Fits (2 * others) (seen ++ (mark ++ type.chars)) →
      Finds (step g) (place.advance e).past (seen ++ (mark ++ type.chars)) s es Q) :
    Finds m' place seen (mark ++ type.chars ++ s) (e :: type.events ++ es) Q := by
  obtain ⟨hnone, hd, hn⟩ := Event.advance_of_announces he place
  have hhere : (place.advance e).Fits (2 * others) (seen ++ mark) :=
    hf.closed hmark hd (Place.pending_eq_zero hn) (.inr (Place.pending_eq_zero ha))
  have hbehind : (place.advance e).past.Fits (2 * others) (seen ++ (mark ++ type.chars)) := by
    rw [← List.append_assoc]
    exact hhere.closed (type.isClosed hread.wellFormed) rfl rfl (.inl type.chars_ne_nil)
  have hfound : Finds m (place.advance e) (seen ++ mark) type.chars type.events Q := by
    refine (hread.finds hp hhere).within.mono fun u name p => ?_
    rintro ⟨hl, s₁, rfl, hs⟩
    exact hQ s₁ name p hs hl
  have hfirst : Finds m' place seen (mark ++ type.chars) (e :: type.events) Q :=
    hfound.behind mark [e] (List.forall_mem_singleton.2 hnone) rfl hm
  have hbegins := hm _ _ _ type.chars_ne_nil List.prefix_rfl hread.begins
  exact hfirst.append hbegins (h hbehind) (hhere.after_type type)

/-- The types of a signature that belong to parts of one kind, each announced by the same event.
The parts are numbered as far as the event counts them. -/
theorem finds_types {types : List TypeTree} {P : Place → Prop} (parts : Nat → Part) (d : Nat)
    (he : e.announces = true) (hmark : IsClosed mark)
    (hpart : ∀ place, P place → P (place.advance e).past ∧
      (place.advance e).part = parts place.nextParameter ∧
      (place.advance e).nextParameter = place.nextParameter + d)
    (hread : ∀ type ∈ types, type.IsReadBy m g others)
    (hm : ∀ type ∈ types, ∀ s' es' left, s' ≠ [] → s' <+: type.chars →
      Begins m s' es' left → Begins (step g) (mark ++ s') (e :: es') left)
    (hp : P place) (hf : place.Fits (2 * others) seen) (ha : place.afterArray = false)
    (hQ : ∀ ts type us, types = ts ++ type :: us → ∀ s₁ name p,
      s₁ ++ ('T' :: name.toList ++ [';']) <+: type.chars →
      Located (parts (place.nextParameter + d * ts.length)) (2 * others)
        (seen ++ (ts.flatMap fun type => mark ++ type.chars) ++ mark ++ s₁) name p →
      Q (seen ++ (ts.flatMap fun type => mark ++ type.chars) ++ mark ++ s₁) name p)
    (h : ∀ next : Place, next.afterArray = false →
      next.Fits (2 * others) (seen ++ types.flatMap fun type => mark ++ type.chars) →
      Finds (step g) next (seen ++ types.flatMap fun type => mark ++ type.chars) s es Q) :
    Finds (step g) place seen ((types.flatMap fun type => mark ++ type.chars) ++ s)
      ((types.flatMap fun type => e :: type.events) ++ es) Q := by
  induction types generalizing place seen with
  | nil =>
      rw [List.flatMap_nil, List.append_nil] at h
      exact h place ha hf
  | cons type types ih =>
      obtain ⟨hp', hhere, hcount⟩ := hpart place hp
      have htext : ∀ ts : List TypeTree,
          seen ++ (mark ++ type.chars) ++ (ts.flatMap fun type => mark ++ type.chars) =
            seen ++ (type :: ts).flatMap fun type => mark ++ type.chars := by
        intro ts
        rw [List.flatMap_cons, List.append_assoc]
      rw [List.flatMap_cons, List.flatMap_cons, List.append_assoc (mark ++ type.chars),
        List.append_assoc (e :: type.events)]
      refine finds_announced he hmark (hread type List.mem_cons_self) (hm type List.mem_cons_self)
        hhere hf ha (fun s₁ name p hs => ?_) fun hnext => ?_
      · simpa using hQ [] type types rfl s₁ name p hs
      · refine ih (fun t ht => hread t (List.mem_cons_of_mem _ ht))
          (fun t ht => hm t (List.mem_cons_of_mem _ ht)) hp' hnext rfl ?_ ?_
        · intro ts t us hts s₁ name p hs hl
          have hindex : (place.advance e).past.nextParameter + d * ts.length =
              place.nextParameter + d * (type :: ts).length := by
            show (place.advance e).nextParameter + d * ts.length = _
            rw [hcount, List.length_cons, Nat.mul_succ]
            omega
          rw [htext, hindex] at hl
          rw [htext]
          exact hQ (type :: ts) t us (by rw [hts, List.cons_append]) s₁ name p hs hl
        · intro next ha' hf'
          rw [htext] at hf' ⊢
          exact h next ha' hf'

end

/-! ### Type parameters -/

theorem head?_of_isPrefix (hne : t ≠ []) (h : t <+: s) : t.head? = s.head? := by
  obtain ⟨u, rfl⟩ := h
  rw [List.head?_append, Option.or_of_isSome (List.isSome_head?.2 hne)]

theorem NoBound.of_isPrefix (h : NoBound s) (hne : t ≠ []) (ht : t <+: s) : NoBound t := by
  rw [NoBound, head?_of_isPrefix hne ht]
  exact h

theorem finds_interfaceBounds {bounds : List TypeTree}
    (hb : ∀ b ∈ bounds, b.isReference = true ∧ b.isWellFormed = true)
    (hp : place.part = .formalBound) (hf : place.Fits (2 * 1) seen) (ha : place.afterArray = false)
    (h : ∀ next : Place, next.Fits (2 * 1) (seen ++ bounds.flatMap fun b => ':' :: b.chars) →
      Finds (step (.moreFormals :: k)) next (seen ++ bounds.flatMap fun b => ':' :: b.chars) s es
        (Located .formalBound (2 * 1))) :
    Finds (step (.interfaceBounds :: .moreFormals :: k)) place seen
      ((bounds.flatMap fun b => ':' :: b.chars) ++ s)
      ((bounds.flatMap fun b => .interfaceBound :: b.events) ++ es)
      (Located .formalBound (2 * 1)) := by
  let g : List Goal := .interfaceBounds :: .moreFormals :: k
  refine finds_types (g := g) (P := fun place => place.part = .formalBound)
    (fun _ => .formalBound) 0 rfl (.single (by decide) : IsClosed [':']) (fun _ hp => ⟨hp, hp, rfl⟩)
    (fun b hm => TypeTree.isReadBy_reference (hb b hm).1 (hb b hm).2) ?_ hp hf ha ?_ ?_
  · intro _ _ s' es' left _ _ hb
    have hopened : Begins (step (.referenceType :: g)) s' es' left := hb
    exact begins_of_reads (e := [.interfaceBound]) rfl hopened.reads
  · exact fun _ _ _ _ _ _ _ _ hl => hl
  · intro next _ hnext
    exact (h next hnext).from_move [] (List.forall_mem_nil _) rfl fun _ _ _ _ _ hb =>
      hb.without_interfaceBounds

/-- The bounds of a type parameter.  The class bound may be missing where the text does not go on
with one. -/
theorem FormalTree.finds {formal : FormalTree} (hw : formal.isWellFormed = true)
    (hf : place.Fits (2 * 1) seen)
    (hs : formal.classBound = none → NoBound (formal.interfaceChars ++ s))
    (h : ∀ next : Place, next.Fits (2 * 1) (seen ++ formal.chars) →
      Finds (step (.moreFormals :: k)) next (seen ++ formal.chars) s es
        (Located .formalBound (2 * 1))) :
    Finds (readFormal k) place seen (formal.chars ++ s) (formal.events ++ es)
      (Located .formalBound (2 * 1)) := by
  obtain ⟨name, classBound, interfaceBounds⟩ := formal
  simp only [isWellFormed, Bool.and_eq_true, List.all_eq_true, List.mem_append,
    Option.mem_toList] at hw
  obtain ⟨hn, hb⟩ := hw
  have hinterfaces := fun b hm => hb b (.inr hm)
  let named := place.advance (.formalParameter name)
  have hname : IsClosed (name.toList ++ [':']) := (IsClosed.variableName hn).concat (by decide)
  have hnamed : named.Fits (2 * 1) (seen ++ (name.toList ++ [':'])) :=
    hf.closed hname rfl rfl (.inl (by simp))
  have hbegins := begins_formalName (k := k) hn
  have hbehind : Finds (step (.classBound :: .interfaceBounds :: .moreFormals :: k)) named
      (seen ++ (name.toList ++ [':']))
      (classBound.elim [] TypeTree.chars ++
        ((interfaceBounds.flatMap fun b => ':' :: b.chars) ++ s))
      ((classBound.elim [] fun b => .classBound :: b.events) ++
        ((interfaceBounds.flatMap fun b => .interfaceBound :: b.events) ++ es))
      (Located .formalBound (2 * 1)) := by
    cases classBound with
    | none =>
        have hi := finds_interfaceBounds hinterfaces rfl hnamed rfl (by simpa [chars] using h)
        refine hi.from_move [] (List.forall_mem_nil _) rfl fun s' es' left hne hs' hb => ?_
        exact hb.without_classBound ((hs rfl).of_isPrefix hne hs')
    | some b =>
        obtain ⟨hr, hbw⟩ := hb b (.inl rfl)
        exact finds_announced (m := readReference (.interfaceBounds :: .moreFormals :: k))
          (rfl : Event.classBound.announces = true) .nil
          (TypeTree.isReadBy_reference hr hbw) (fun _ _ _ _ _ hb => hb.classBound) rfl hnamed rfl
          (fun _ _ _ _ hl => hl) fun hnext =>
            finds_interfaceBounds hinterfaces rfl hnext rfl (by simpa [chars] using h)
  have hnone : ∀ e ∈ [Event.formalParameter name], e.reference? = none := by
    rw [List.forall_mem_singleton]
    rfl
  have hall := (Finds.of_none hnone).append hbegins hbehind rfl
  simpa [chars, events] using hall

theorem FormalTree.isClosed {formal : FormalTree} (hw : formal.isWellFormed = true) :
    IsClosed formal.chars := by
  simp only [isWellFormed, Bool.and_eq_true, List.all_eq_true, List.mem_append,
    Option.mem_toList] at hw
  obtain ⟨hn, hb⟩ := hw
  have hclass : IsClosed (formal.classBound.elim [] TypeTree.chars) := by
    cases hc : formal.classBound with
    | none => exact .nil
    | some b => exact b.isClosed (hb b (.inl hc)).2
  have hinterfaces : IsClosed (formal.interfaceBounds.flatMap fun b => ':' :: b.chars) :=
    .flatMap fun b hm => .cons (by decide) (b.isClosed (hb b (.inr hm)).2)
  exact (IsClosed.variableName hn).append (.cons (by decide) (hclass.append hinterfaces))

theorem FormalTree.finds_list {formals : List FormalTree} (hne : formals ≠ [])
    (hw : FormalTree.areWellFormed formals = true) (hf : place.Fits (2 * 1) seen) :
    Finds (readFormal k) place seen (formals.flatMap FormalTree.chars ++ ['>'])
      (formals.flatMap FormalTree.events) (Located .formalBound (2 * 1)) := by
  induction formals generalizing place seen with
  | nil => exact absurd rfl hne
  | cons formal rest ih =>
      obtain ⟨hformal, hr, hs⟩ := FormalTree.areWellFormed_cons_iff.1 hw
      rw [List.flatMap_cons, List.flatMap_cons, List.append_assoc]
      refine FormalTree.finds hformal hf hs fun next hnext => ?_
      cases rest with
      | nil => exact .of_none (List.forall_mem_nil _)
      | cons second rest =>
          exact (ih (List.cons_ne_nil _ _) hr hnext).from_move [] (List.forall_mem_nil _) rfl
            fun _ _ _ _ _ hb => hb.after_formal

theorem FormalTree.isClosed_listChars {formals : List FormalTree}
    (hw : FormalTree.areWellFormed formals = true) : IsClosed (FormalTree.listChars formals) := by
  have hall : ∀ formal ∈ formals, IsClosed formal.chars := fun _ hm =>
    FormalTree.isClosed ((areWellFormed_iff.1 hw).1 _ hm)
  cases formals with
  | nil => exact .nil
  | cons formal rest => exact (IsClosed.flatMap hall).list

theorem Place.fits_start (kind : Kind) : (Place.start kind).Fits (2 * 0) [] :=
  ⟨rfl, endsInArrays_zero_iff.2 (by simp)⟩

theorem finds_formals {kind : Kind} {formals : List FormalTree} (hk : kind ≠ .fieldKind)
    (hw : FormalTree.areWellFormed formals = true) (hs : s.head? ≠ some '<')
    (hQ : ∀ s₁ name p, s₁ ++ ('T' :: name.toList ++ [';']) <+: FormalTree.listChars formals →
      Located .formalBound (2 * 1) s₁ name p → Q s₁ name p)
    (h : ∀ next : Place, next.Fits (2 * 0) (FormalTree.listChars formals) →
      next.afterArray = false → next.nextParameter = 0 →
      Finds (step k) next (FormalTree.listChars formals) s es Q) :
    Finds (step (.formals :: k)) (.start kind) [] (FormalTree.listChars formals ++ s)
      (formals.flatMap FormalTree.events ++ es) Q := by
  let start := Place.start kind
  have hf : start.Fits (2 * 0) [] := Place.fits_start kind
  have hclosed := FormalTree.isClosed_listChars hw
  have hrest := h start (hf.closed hclosed rfl rfl (.inr rfl)) rfl rfl
  by_cases hn : formals = []
  · subst hn
    refine hrest.from_move [] (List.forall_mem_nil _) rfl
      fun s' es' left hne hs' hb => hb.without_formals ?_
    rwa [head?_of_isPrefix hne hs']
  · have hpart : start.part = .formalBound := if_neg hk
    obtain ⟨hafter, -⟩ := FormalTree.reaches_all (rfl : start.depth = 0) hpart formals
    have hchars : FormalTree.listChars formals =
        ['<'] ++ (formals.flatMap FormalTree.chars ++ ['>']) := by
      cases formals with
      | nil => exact absurd rfl hn
      | cons formal rest => rfl
    have hopened : start.Fits (2 * 1) ([] ++ ['<']) := ⟨rfl, endsInArrays_zero_iff.2 (by decide)⟩
    have hlist : Finds (step (.formals :: k)) start [] (FormalTree.listChars formals)
        (formals.flatMap FormalTree.events) Q := by
      have hfound : Finds (readFormal k) start ([] ++ ['<'])
          (formals.flatMap FormalTree.chars ++ ['>']) (formals.flatMap FormalTree.events) Q := by
        refine (FormalTree.finds_list hn hw hopened).within.mono fun u name p => ?_
        rintro ⟨hl, s₁, rfl, hs₁⟩
        refine hQ _ name p ?_ hl
        rw [hchars]
        exact List.cons_prefix_cons.2 ⟨rfl, hs₁⟩
      rw [hchars]
      exact hfound.behind ['<'] [] (List.forall_mem_nil _) rfl fun _ _ _ _ _ hb =>
        begins_of_reads (c := '<') (e := []) rfl hb.firstFormal.reads
    exact hlist.append (FormalTree.begins_listChars hn hw) hrest hafter

/-! ### Whole signatures -/

theorem ClassTree.finds {tree : ClassTree} (hw : tree.isWellFormed = true) :
    Finds (step Kind.classKind.goals) (.start .classKind) [] tree.chars tree.events
      (Tree.ofClass tree).Locates := by
  obtain ⟨formals, superclass, interfaces⟩ := tree
  rw [ClassTree.isWellFormed, Bool.and_eq_true, List.all_cons, Bool.and_eq_true,
    Bool.and_eq_true, List.all_eq_true] at hw
  obtain ⟨hf, ⟨hc, hs⟩, hi⟩ := hw
  simp only [Bool.and_eq_true] at hi
  have hopen : (superclass.chars ++ interfaces.flatMap TypeTree.chars).head? ≠ some '<' := by
    rw [List.head?_append, TypeTree.head?_of_isClass hc, Option.some_or]
    decide
  rw [ClassTree.chars, ClassTree.events, List.append_assoc]
  refine finds_formals (by decide) hf hopen
    (fun s₁ name p hs₁ hl => (Tree.Holds.classFormals _).locates hs₁ hl) fun next hn ha _ => ?_
  refine finds_announced (m := readJava [.interfaces]) (g := [.interfaces])
    (rfl : Event.superclass.announces = true) .nil (TypeTree.isReadBy_java hs)
    (fun s' es' left hne hs' hb => ?_) rfl hn ha (fun s₁ name p hs₁ hl => ?_) fun hbehind => ?_
  · have hhead : s'.head? = some 'L' := by
      rw [head?_of_isPrefix hne hs', TypeTree.head?_of_isClass hc]
    exact (hb.of_class hhead).superclass
  · rw [List.append_nil] at hl ⊢
    exact (Tree.Holds.superclass _).locates hs₁ hl
  · have hrest : Finds (step [.interfaces]) (next.advance .superclass).past
        (FormalTree.listChars formals ++ superclass.chars)
        ((interfaces.flatMap fun type => [] ++ type.chars) ++ [])
        ((interfaces.flatMap fun type => .interface :: type.events) ++ [])
        (Tree.ofClass ⟨formals, superclass, interfaces⟩).Locates := by
      refine finds_types (P := fun _ => True) (fun _ => .interface) 0 rfl .nil
        (fun _ _ => ⟨trivial, rfl, rfl⟩) (fun type ht => TypeTree.isReadBy_java (hi type ht).2)
        (fun type ht s' es' left hne hs' hb => ?_) trivial hbehind rfl ?_ ?_
      · have hhead : s'.head? = some 'L' := by
          rw [head?_of_isPrefix hne hs', TypeTree.head?_of_isClass (hi type ht).1]
        exact (hb.of_class hhead).interface
      · intro ts type us hts s₁ name p hs₁ hl
        rw [List.append_nil] at hl ⊢
        exact (Tree.Holds.interface hts).locates hs₁ hl
      · intro next _ _
        exact .of_none (List.forall_mem_nil _)
    rwa [List.append_nil, List.append_nil] at hrest

theorem finds_result {result : Option TypeTree} (hw : ∀ type ∈ result, type.isWellFormed = true)
    (hf : place.Fits (2 * 0) seen) (ha : place.afterArray = false)
    (hQ : ∀ type, result = some type → ∀ s₁ name p,
      s₁ ++ ('T' :: name.toList ++ [';']) <+: type.chars →
      Located .returnType (2 * 0) (seen ++ s₁) name p → Q (seen ++ s₁) name p)
    (h : ∀ next : Place, next.Fits (2 * 0) (seen ++ result.elim ['V'] TypeTree.chars) →
      next.afterArray = false →
      Finds (step k) next (seen ++ result.elim ['V'] TypeTree.chars) s es Q) :
    Finds (step (.returnType :: k)) place seen (result.elim ['V'] TypeTree.chars ++ s)
      (.returnType :: result.elim [.voidType] TypeTree.events ++ es) Q := by
  cases result with
  | none =>
      have hnext : (place.advance .returnType).past.Fits (2 * 0) (seen ++ ['V']) :=
        hf.closed (.single (by decide)) rfl rfl (.inl (by simp))
      have hvoid : ∀ e ∈ [Event.returnType, .voidType], e.reference? = none := by decide
      exact (Finds.of_none hvoid).append (begins_result hw) (h _ hnext rfl) rfl
  | some type =>
      refine finds_announced (m := readJava k)
        (rfl : Event.returnType.announces = true) .nil (TypeTree.isReadBy_java (hw type rfl))
        (fun _ _ _ _ _ hb => hb.returnType) rfl hf ha (fun s₁ name p hs₁ hl => ?_)
        fun hnext => h _ hnext rfl
      rw [List.append_nil] at hl ⊢
      exact hQ type rfl s₁ name p hs₁ hl

theorem MethodTree.finds {tree : MethodTree} (hw : tree.isWellFormed = true) :
    Finds (step Kind.methodKind.goals) (.start .methodKind) [] tree.chars tree.events
      (Tree.ofMethod tree).Locates := by
  obtain ⟨formals, parameters, result, exceptions⟩ := tree
  simp only [MethodTree.isWellFormed, Bool.and_eq_true, List.all_append, List.all_eq_true,
    Option.mem_toList] at hw
  obtain ⟨⟨hf, hp, hr⟩, he⟩ := hw
  let Q := (Tree.ofMethod ⟨formals, parameters, result, exceptions⟩).Locates
  let opened := FormalTree.listChars formals ++ ['(']
  let closed := opened ++ parameters.flatMap TypeTree.chars ++ [')']
  have hexceptions : ∀ next : Place,
      next.Fits (2 * 0) (closed ++ result.elim ['V'] TypeTree.chars) → next.afterArray = false →
      Finds (step [.exceptions]) next (closed ++ result.elim ['V'] TypeTree.chars)
        ((exceptions.flatMap fun type => ['^'] ++ type.chars) ++ [])
        ((exceptions.flatMap fun type => .exceptionType :: type.events) ++ []) Q := by
    intro next hn ha
    refine finds_types (P := fun _ => True) (fun _ => .exception) 0 rfl (.single (by decide))
      (fun _ _ => ⟨trivial, rfl, rfl⟩) (fun type ht => TypeTree.isReadBy_java (he type ht).2)
      (fun type ht s' es' left hne hs' hb => ?_) trivial hn ha ?_ ?_
    · refine hb.exceptionType ?_
      rw [head?_of_isPrefix hne hs']
      exact TypeTree.head?_of_isThrowable (he type ht).1
    · intro ts type us hts s₁ name p hs₁ hl
      exact (Tree.Holds.exception hts).locates hs₁ hl
    · intro last _ _
      exact .of_none (List.forall_mem_nil _)
  have hresult : ∀ next : Place, next.Fits (2 * 0) closed → next.afterArray = false →
      Finds (step [.returnType, .exceptions]) next closed
        (result.elim ['V'] TypeTree.chars ++ exceptions.flatMap fun type => '^' :: type.chars)
        (.returnType :: result.elim [.voidType] TypeTree.events ++
          exceptions.flatMap fun type => .exceptionType :: type.events) Q := by
    intro next hn ha
    refine finds_result hr hn ha (fun type ht s₁ name p hs₁ hl => ?_) fun last hlast ha' => ?_
    · exact (Tree.Holds.returnType ht).locates hs₁ hl
    · have hrest := hexceptions last hlast ha'
      rwa [List.append_nil, List.append_nil] at hrest
  have hparameters : ∀ next : Place, next.Fits (2 * 0) opened → next.afterArray = false →
      next.nextParameter = 0 → Finds (step [.moreParameters, .returnType, .exceptions]) next opened
        ((parameters.flatMap fun type => [] ++ type.chars) ++ ([')'] ++
          (result.elim ['V'] TypeTree.chars ++ exceptions.flatMap fun type => '^' :: type.chars)))
        ((parameters.flatMap fun type => .parameterType :: type.events) ++
          (.returnType :: result.elim [.voidType] TypeTree.events ++
            exceptions.flatMap fun type => .exceptionType :: type.events)) Q := by
    intro next hn ha hz
    refine finds_types (P := fun _ => True) .parameter 1 rfl .nil
      (fun _ _ => ⟨trivial, rfl, rfl⟩) (fun type ht => TypeTree.isReadBy_java (hp type ht))
      (fun _ _ _ _ _ _ _ hb => hb.parameterType) trivial hn ha ?_ fun last ha' hlast => ?_
    · intro ts type us hts s₁ name p hs₁ hl
      rw [List.append_nil, hz, Nat.zero_add, Nat.one_mul] at hl
      rw [List.append_nil]
      exact (Tree.Holds.parameter hts).locates hs₁ hl
    · have hclosed : last.Fits (2 * 0) closed :=
        hlast.closed (.single (by decide)) rfl (Place.pending_eq_zero ha') (.inl (by simp))
      exact (hresult last hclosed ha').behind [')'] [] (List.forall_mem_nil _) rfl
        fun _ _ _ _ _ hb => begins_of_reads (e := []) rfl hb.reads
  rw [MethodTree.chars, MethodTree.events, List.append_assoc, List.append_assoc]
  refine finds_formals (by decide) hf (by simp)
    (fun s₁ name p hs₁ hl => (Tree.Holds.methodFormals _).locates hs₁ hl) fun next hn ha hz => ?_
  have hopened : next.Fits (2 * 0) opened :=
    hn.closed (.single (by decide)) rfl (Place.pending_eq_zero ha) (.inl (by simp))
  exact (hparameters next hopened ha hz).behind ['('] [] (List.forall_mem_nil _) rfl
    fun _ _ _ _ _ hb => begins_of_reads (e := []) rfl hb.reads

/-- Every type variable of a signature is found where its place tells. -/
theorem Tree.finds {tree : Tree} (hw : tree.isWellFormed = true) :
    Finds (step tree.kind.goals) (.start tree.kind) [] tree.chars tree.events tree.Locates := by
  cases tree with
  | ofClass tree => exact ClassTree.finds hw
  | ofMethod tree => exact MethodTree.finds hw
  | ofField type =>
      rw [Tree.isWellFormed, Bool.and_eq_true] at hw
      have htype := TypeTree.finds [] [] (.start .fieldKind) rfl (Place.fits_start _) type hw.1 hw.2
      refine htype.within.mono fun u name p => ?_
      rintro ⟨hl, s₁, rfl, hs⟩
      exact (Tree.Holds.field type).locates hs hl

/-- **Places locate type variables in the text.**  An accepted signature is the text of a tree,
which tells its parts.  When the reader is at the end of a type variable, the event of the variable
comes next, and the place behind this event tells the part that the variable stands in.  Its depth
is twice the number of lists of type arguments that are open ahead of the variable, and its
dimensions are the `[` directly before it.  Of the `<` that are open among the type parameters of a
signature, the first opens no list of type arguments. -/
theorem walk_locates_variables (kind : Kind) (text : String) (h : (walk kind text).error = none) :
    (∃ tree : Tree, tree.kind = kind ∧ tree.isWellFormed = true ∧ tree.chars = text.toList) ∧
    ∀ tree : Tree, tree.kind = kind → tree.isWellFormed = true → tree.chars = text.toList →
      ∀ k name, (walk kind text).events[k]? = some (.typeVariable name) →
      ∃ place left start inside rest back lists,
        ((walk kind text).events.take (k + 1)).foldlM (Place.apply text) (.start kind) =
          .ok place ∧
        text.toList = start ++ (inside ++ ('T' :: name.toList ++ ';' :: rest)) ++ back ∧
        Reads kind.goals (start ++ inside ++ 'T' :: name.toList) ((walk kind text).events.take k)
          (.variableName name :: left) ∧
        tree.Holds place.part start (inside ++ ('T' :: name.toList ++ ';' :: rest)) ∧
        place.depth = 2 * lists ∧
        (start ++ inside).count '<' = (start ++ inside).count '>' + lists +
          (if place.part = .formalBound then 1 else 0) ∧
        EndsInArrays place.dims (start ++ inside) := by
  refine ⟨(walk_accepts_iff kind text).1.1 h, ?_⟩
  rintro tree rfl hw hs k name hk
  have hwalk := Tree.walk_of_chars hw hs
  rw [hwalk] at hk ⊢
  let start := Place.start tree.kind
  let before := start.after (tree.events.take k)
  have htake : tree.events.take (k + 1) = tree.events.take k ++ [.typeVariable name] := by
    rw [List.take_add_one, hk]
    rfl
  have hsplit : tree.events = tree.events.take k ++
      .typeVariable name :: tree.events.drop (k + 1) := by
    conv_lhs => rw [← List.take_append_drop (k + 1) tree.events, htake]
    rw [List.append_assoc, List.singleton_append]
  obtain ⟨s₁, s₂, left, -, hread, front, inside, rest, hfront, hholds, hfits⟩ :=
    Tree.finds hw _ name _ hsplit
  obtain rfl : s₁ = front ++ inside := hfront
  have hplace : before.Fits before.part.gap (front ++ inside) :=
    hfits.congr Place.settled_settled
  have hdepth := hplace.depth
  -- the event of the variable moves the place no further
  have hafter : start.after (tree.events.take (k + 1)) = before.advance (.typeVariable name) := by
    rw [htake, Place.after_append]
    rfl
  obtain ⟨n, hlevel, -⟩ := level?_take (level?_of_walk h) (k + 1)
  rw [hwalk] at hlevel
  obtain ⟨happly, -⟩ := foldlM_apply_eq_ok text start hlevel
  let opened : Nat := if before.part = .formalBound then 1 else 0
  have hgap : before.part.gap = 2 * opened := by
    show (if _ then 2 else 0) = 2 * if _ then 1 else 0
    split <;> rfl
  obtain ⟨back, hchars⟩ := hholds.exists_chars
  refine ⟨before.advance (.typeVariable name), left, front, inside, rest, back,
    (front ++ inside).count '<' - (front ++ inside).count '>' - opened, ?_, hs ▸ hchars,
    hread.reads, hholds, ?_, ?_, hplace.arrays⟩
  · rw [happly]
    exact congrArg Except.ok hafter
  · show before.depth = _
    omega
  · show _ = _ + _ + opened
    omega

/-- The last type variable of a method with two parameters: one list of type arguments is open ahead
of it, and one `[` stands before it. -/
theorem walk_locates_variables_inner : ∃ tree : Tree,
    tree.chars = "<T:Lp/A;>([[TT;Lp/Outer<TT;>.Inner<[TU;>;)V".toList ∧
      ∃ start inside rest,
        tree.Holds (.parameter 1) start (inside ++ ('T' :: "U".toList ++ ';' :: rest)) ∧
        (start ++ inside).count '<' = (start ++ inside).count '>' + 1 ∧
        EndsInArrays 1 (start ++ inside) := by
  obtain ⟨⟨tree, hk, hw, hs⟩, hall⟩ := walk_locates_variables .methodKind
    "<T:Lp/A;>([[TT;Lp/Outer<TT;>.Inner<[TU;>;)V" rfl
  obtain ⟨place, -, start, inside, rest, -, lists, happly, -, -, hholds, hdepth, hlists, harrays⟩ :=
    hall tree hk hw hs 17 "U" rfl
  obtain rfl : place = ⟨2, .parameter 1, 2, 1, false, ["T"]⟩ := (Except.ok.inj happly).symm
  obtain rfl : lists = 1 := by
    have hdepth' : 2 = 2 * lists := hdepth
    omega
  exact ⟨tree, hs, start, inside, rest, hholds, hlists, harrays⟩

end RecordRepair.Signature
